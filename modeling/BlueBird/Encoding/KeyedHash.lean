import Mathlib.Algebra.Ring.Nat
import BlueBird.Stream.BigEndian

/-! Keyed hashes: a message authentication code over any hash, and keys derived with any pseudorandom function. -/

namespace KeyedHash

def xor (a b : List UInt8) : List UInt8 := List.zipWith (· ^^^ ·) a b

/-! ## Message authentication -/

/-- The key of a block: a longer one is hashed first, and zeros fill it up. -/
def blockKey (hash : List UInt8 → List UInt8) (block : Nat) (key : List UInt8) : List UInt8 :=
  let short := if block < key.length then hash key else key
  short ++ List.replicate (block - short.length) 0

def hmac (hash : List UInt8 → List UInt8) (block : Nat) (key text : List UInt8) : List UInt8 :=
  let key := blockKey hash block key
  hash (key.map (· ^^^ 0x5c) ++ hash (key.map (· ^^^ 0x36) ++ text))

/-! ## Derived keys -/

section

variable (prf : List UInt8 → List UInt8 → List UInt8) (password salt : List UInt8)

/-- `U` of a block, its first value at 0. -/
def chained (index : Nat) : (step : Nat) → List UInt8
  | 0 => prf password (salt ++ BigEndian.encode index 4)
  | step + 1 => prf password (chained index step)

/-- The first `count + 1` chained values, xored. -/
def folded (index : Nat) : (count : Nat) → List UInt8
  | 0 => chained prf password salt index 0
  | count + 1 => xor (folded index count) (chained prf password salt index (count + 1))

/-- The block `T` of a number, counted from 1. -/
def derivedBlock (iterations index : Nat) : List UInt8 := folded prf password salt index (iterations - 1)

/-- The first `length` bytes of `T 1 ‖ T 2 ‖ ...`, for blocks of `size` bytes. -/
def derive (size iterations length : Nat) : List UInt8 :=
  ((List.range ((length + size - 1) / size)).flatMap fun i => derivedBlock prf password salt iterations (i + 1)).take length

end

theorem length_xor (a b : List UInt8) : (xor a b).length = min a.length b.length := List.length_zipWith

section

variable {prf : List UInt8 → List UInt8 → List UInt8} {password salt : List UInt8} {size : Nat}

theorem length_chained (fixed : ∀ key text, (prf key text).length = size) (index step : Nat) :
    (chained prf password salt index step).length = size := by
  cases step <;> exact fixed _ _

theorem length_derivedBlock (fixed : ∀ key text, (prf key text).length = size) (iterations index : Nat) :
    (derivedBlock prf password salt iterations index).length = size := by
  unfold derivedBlock
  induction iterations - 1 with
  | zero => exact length_chained fixed index 0
  | succ count ih => rw [folded, length_xor, ih, length_chained fixed, Nat.min_self]

end

end KeyedHash
