import Mathlib.Algebra.Ring.Nat
import BlueBird.Stream.BigEndian
import BlueBird.Stream.Blockwise

/-! SHA-256 as the Secure Hash Standard states it: words of 32 bits, a schedule, 64 rounds on eight registers. -/

namespace SecureHash

structure Registers where
  a : UInt32
  b : UInt32
  c : UInt32
  d : UInt32
  e : UInt32
  f : UInt32
  g : UInt32
  h : UInt32
  deriving DecidableEq, Repr

namespace Registers

def toList (r : Registers) : List UInt32 := [r.a, r.b, r.c, r.d, r.e, r.f, r.g, r.h]

def add (r s : Registers) : Registers :=
  ⟨r.a + s.a, r.b + s.b, r.c + s.c, r.d + s.d, r.e + s.e, r.f + s.f, r.g + s.g, r.h + s.h⟩

end Registers

/-! ## The constants -/

/-- From the guess `r`, the largest root that `bits` more bits can make. -/
def rootFrom (power n : Nat) : (bits r : Nat) → Nat
  | 0, r => r
  | bits + 1, r => if (r + 2 ^ bits) ^ power ≤ n then rootFrom power n bits (r + 2 ^ bits) else rootFrom power n bits r

theorem rootFrom_spec {power n : Nat} (bits : Nat) {r : Nat} (low : r ^ power ≤ n) (high : n < (r + 2 ^ bits) ^ power) :
    rootFrom power n bits r ^ power ≤ n ∧ n < (rootFrom power n bits r + 1) ^ power := by
  induction bits generalizing r with
  | zero => exact ⟨low, high⟩
  | succ bits ih =>
    have double : r + 2 ^ (bits + 1) = r + 2 ^ bits + 2 ^ bits := by
      rw [Nat.pow_succ, Nat.mul_two, Nat.add_assoc]
    rw [rootFrom]
    by_cases fits : (r + 2 ^ bits) ^ power ≤ n
    · rw [if_pos fits]
      rw [double] at high
      exact ih fits high
    · rw [if_neg fits]
      exact ih low (Nat.lt_of_not_le fits)

/-- The first 32 bits of the fractional part of a root of `prime`. -/
def fraction (power prime : Nat) : UInt32 := UInt32.ofNat (rootFrom power (prime * 2 ^ (32 * power)) 37 0)

theorem fraction_spec {power prime : Nat} (positive : 0 < power) (small : prime < 32 ^ power) :
    ∃ root, root ^ power ≤ prime * 2 ^ (32 * power) ∧ prime * 2 ^ (32 * power) < (root + 1) ^ power ∧
      fraction power prime = UInt32.ofNat root := by
  have low : 0 ^ power ≤ prime * 2 ^ (32 * power) := by
    rw [Nat.zero_pow positive]
    exact Nat.zero_le _
  have high : prime * 2 ^ (32 * power) < (0 + 2 ^ 37) ^ power := by
    rw [Nat.zero_add, Nat.pow_mul, show 2 ^ 37 = 32 * 2 ^ 32 from rfl, Nat.mul_pow]
    exact Nat.mul_lt_mul_of_pos_right small (Nat.pow_pos (by decide))
  have root := rootFrom_spec 37 low high
  exact ⟨_, root.1, root.2, rfl⟩

def primes : List Nat :=
  [2, 3, 5, 7, 11, 13, 17, 19, 23, 29, 31, 37, 41, 43, 47, 53, 59, 61, 67, 71, 73, 79, 83, 89, 97, 101, 103, 107, 109, 113,
    127, 131, 137, 139, 149, 151, 157, 163, 167, 173, 179, 181, 191, 193, 197, 199, 211, 223, 227, 229, 233, 239, 241, 251,
    257, 263, 269, 271, 277, 281, 283, 293, 307, 311]

def roundConstants : List UInt32 := primes.map (fraction 3)

def initial : Registers :=
  ⟨fraction 2 2, fraction 2 3, fraction 2 5, fraction 2 7, fraction 2 11, fraction 2 13, fraction 2 17, fraction 2 19⟩

/-! ## The compression of a block -/

def rotr (n x : UInt32) : UInt32 := (x >>> n) ||| (x <<< (32 - n))

def choose (x y z : UInt32) : UInt32 := (x &&& y) ^^^ (~~~x &&& z)

def majority (x y z : UInt32) : UInt32 := (x &&& y) ^^^ (x &&& z) ^^^ (y &&& z)

def bigSigma0 (x : UInt32) : UInt32 := rotr 2 x ^^^ rotr 13 x ^^^ rotr 22 x

def bigSigma1 (x : UInt32) : UInt32 := rotr 6 x ^^^ rotr 11 x ^^^ rotr 25 x

def smallSigma0 (x : UInt32) : UInt32 := rotr 7 x ^^^ rotr 18 x ^^^ (x >>> 3)

def smallSigma1 (x : UInt32) : UInt32 := rotr 17 x ^^^ rotr 19 x ^^^ (x >>> 10)

def word (block : List UInt8) (t : Nat) : UInt32 := UInt32.ofNat (BigEndian.decode ((block.drop (4 * t)).take 4))

def schedule (block : List UInt8) (t : Nat) : UInt32 :=
  if t < 16 then word block t
  else smallSigma1 (schedule block (t - 2)) + schedule block (t - 7) + smallSigma0 (schedule block (t - 15)) +
    schedule block (t - 16)
termination_by t

def step (constant message : UInt32) (r : Registers) : Registers :=
  let t₁ := r.h + bigSigma1 r.e + choose r.e r.f r.g + constant + message
  let t₂ := bigSigma0 r.a + majority r.a r.b r.c
  ⟨t₁ + t₂, r.a, r.b, r.c, r.d + t₁, r.e, r.f, r.g⟩

def rounds (block : List UInt8) : (count : Nat) → Registers → Registers
  | 0, r => r
  | t + 1, r => step (roundConstants.getD t 0) (schedule block t) (rounds block t r)

def compress (r : Registers) (block : List UInt8) : Registers := r.add (rounds block 64 r)

/-! ## The message -/

/-- A one bit, the fewest zeros, and the length in bits, up to a whole number of blocks. -/
def padded (message : List UInt8) : List UInt8 :=
  message ++ 0x80 :: List.replicate ((119 - message.length % 64) % 64) 0 ++ BigEndian.encode (8 * message.length) 8

def digest (message : List UInt8) : List UInt8 :=
  ((Blockwise.blocks 64 ((padded message).length / 64) (padded message)).foldl compress initial).toList.flatMap
    fun w => BigEndian.encode w.toNat 4

theorem length_padded (message : List UInt8) : 64 ∣ (padded message).length := by
  unfold padded
  rw [List.length_append, List.length_append, List.length_cons, List.length_replicate, BigEndian.length_encode]
  omega

end SecureHash
