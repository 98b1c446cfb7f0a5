import BlueBird.Encoding.Base64

/-! What is encoded in base64 can be decoded again. -/

namespace BlueBird

/-! ## The standard's decoding -/

def pad : Byte := ch '='

/-- The six bits that a letter stands for. -/
def sextet (letter : Byte) : Option Nat := base64Table.idxOf? letter

def octets (a b c d : Nat) : Bytes :=
  let value := ((a * 64 + b) * 64 + c) * 64 + d
  [UInt8.ofNat (value / 2 ^ 16), UInt8.ofNat (value / 2 ^ 8), UInt8.ofNat value]

/-- Four letters at a time; only the last four may end with padding. -/
def base64Decode : Bytes → Option Bytes
  | [] => some []
  | a :: b :: c :: d :: rest =>
    if rest = [] ∧ c = pad ∧ d = pad then do return (octets (← sextet a) (← sextet b) 0 0).take 1
    else if rest = [] ∧ d = pad then do return (octets (← sextet a) (← sextet b) (← sextet c) 0).take 2
    else do return octets (← sextet a) (← sextet b) (← sextet c) (← sextet d) ++ (← base64Decode rest)
  | _ => none

theorem sextet_letter (n : Nat) : sextet (base64Letter n) = some (n % 64) := by
  have each : ∀ i : Fin 64, sextet (base64Table.getD i.val 0) = some i.val := by decide +kernel
  have low : n &&& 0x3F = n % 64 := Nat.and_two_pow_sub_one_eq_mod n 6
  unfold base64Letter
  rw [low]
  exact each ⟨n % 64, Nat.mod_lt n (by decide)⟩

theorem letter_ne_pad (n : Nat) : base64Letter n ≠ pad := by
  intro same
  have value := sextet_letter n
  have none_ : sextet pad = none := by decide
  rw [same, none_] at value
  cases value

theorem triple_eq (a b c : Byte) : (a.toNat <<< 16) ||| (b.toNat <<< 8) ||| c.toNat = a.toNat * 2 ^ 16 + b.toNat * 2 ^ 8 + c.toNat := by
  have third : c.toNat < 2 ^ 8 := c.toNat_lt
  have second : b.toNat <<< 8 < 2 ^ 16 := by
    have small : b.toNat < 2 ^ 8 := b.toNat_lt
    rw [Nat.shiftLeft_eq]
    omega
  rw [← Nat.shiftLeft_add_eq_or_of_lt second, Nat.shiftLeft_eq, Nat.shiftLeft_eq]
  rw [show a.toNat * 2 ^ 16 + b.toNat * 2 ^ 8 = (a.toNat * 2 ^ 8 + b.toNat) <<< 8 by rw [Nat.shiftLeft_eq]; omega,
    ← Nat.shiftLeft_add_eq_or_of_lt third]

theorem octets_quad (a b c : Byte) (triple : Nat) (same : triple = a.toNat * 2 ^ 16 + b.toNat * 2 ^ 8 + c.toNat) :
    octets (triple >>> 18 % 64) (triple >>> 12 % 64) (triple >>> 6 % 64) (triple % 64) = [a, b, c] := by
  have first : a.toNat < 2 ^ 8 := a.toNat_lt
  have second : b.toNat < 2 ^ 8 := b.toNat_lt
  have third : c.toNat < 2 ^ 8 := c.toNat_lt
  have whole : ((triple >>> 18 % 64 * 64 + triple >>> 12 % 64) * 64 + triple >>> 6 % 64) * 64 + triple % 64 = triple := by
    simp only [Nat.shiftRight_eq_div_pow]
    omega
  unfold octets
  dsimp only
  rw [whole]
  congr 1
  · apply UInt8.toNat_inj.mp
    rw [UInt8.toNat_ofNat']
    omega
  congr 1
  · apply UInt8.toNat_inj.mp
    rw [UInt8.toNat_ofNat']
    omega
  congr 1
  · apply UInt8.toNat_inj.mp
    rw [UInt8.toNat_ofNat']
    omega

/-! ## What the code encodes -/

theorem base64Decode_quad (a b c : Byte) (rest : Bytes) :
    base64Decode (base64Quad a b c ++ rest) = (base64Decode rest).map ([a, b, c] ++ ·) := by
  unfold base64Quad
  dsimp only
  rw [triple_eq]
  generalize same : a.toNat * 2 ^ 16 + b.toNat * 2 ^ 8 + c.toNat = triple
  rw [List.cons_append, List.cons_append, List.cons_append, List.cons_append, List.nil_append, base64Decode,
    if_neg (fun both => letter_ne_pad _ both.2.2), if_neg (fun both => letter_ne_pad _ both.2), sextet_letter, sextet_letter,
    sextet_letter, sextet_letter]
  rw [← octets_quad a b c triple same.symm]
  cases base64Decode rest <;> rfl

theorem base64Decode_one (a : Byte) : base64Decode ((base64Quad a 0 0).take 2 ++ [pad, pad]) = some [a] := by
  unfold base64Quad
  dsimp only
  rw [triple_eq]
  generalize same : a.toNat * 2 ^ 16 + (0 : Byte).toNat * 2 ^ 8 + (0 : Byte).toNat = triple
  have zero : triple >>> 6 % 64 = 0 ∧ triple % 64 = 0 := by
    have value : triple = a.toNat * 2 ^ 16 := by simpa using same.symm
    rw [value, Nat.shiftRight_eq_div_pow]
    omega
  have back := octets_quad a 0 0 triple same.symm
  rw [zero.1, zero.2] at back
  show base64Decode (base64Letter (triple >>> 18) :: base64Letter (triple >>> 12) :: pad :: pad :: []) = _
  rw [base64Decode, if_pos ⟨rfl, rfl, rfl⟩, sextet_letter, sextet_letter]
  show some ((octets (triple >>> 18 % 64) (triple >>> 12 % 64) 0 0).take 1) = _
  rw [back]
  rfl

theorem base64Decode_two (a b : Byte) : base64Decode ((base64Quad a b 0).take 3 ++ [pad]) = some [a, b] := by
  unfold base64Quad
  dsimp only
  rw [triple_eq]
  generalize same : a.toNat * 2 ^ 16 + b.toNat * 2 ^ 8 + (0 : Byte).toNat = triple
  have zero : triple % 64 = 0 := by
    have value : triple = a.toNat * 2 ^ 16 + b.toNat * 2 ^ 8 := by simpa using same.symm
    rw [value]
    omega
  have back := octets_quad a b 0 triple same.symm
  rw [zero] at back
  show base64Decode (base64Letter (triple >>> 18) :: base64Letter (triple >>> 12) :: base64Letter (triple >>> 6) :: pad :: []) = _
  rw [base64Decode, if_neg (fun both => letter_ne_pad _ both.2.1), if_pos ⟨rfl, rfl⟩, sextet_letter, sextet_letter, sextet_letter]
  show some ((octets (triple >>> 18 % 64) (triple >>> 12 % 64) (triple >>> 6 % 64) 0).take 2) = _
  rw [back]
  rfl

theorem base64Encode_three (a b c : Byte) (rest : Bytes) :
    base64Encode (a :: b :: c :: rest) = base64Quad a b c ++ base64Encode rest := by
  have padding : base64Padding (a :: b :: c :: rest).length = base64Padding rest.length := by
    unfold base64Padding
    rw [show (a :: b :: c :: rest).length = rest.length + 3 from rfl, Nat.add_mod_right]
  have few := base64Padding_le rest
  unfold base64Encode
  dsimp only
  rw [padding, base64Quads, List.length_append, base64Quad_length, Nat.add_sub_assoc few, ← base64Quad_length a b c,
    List.take_length_add_append, List.append_assoc]

theorem base64Decode_encode : (data : Bytes) → base64Decode (base64Encode data) = some data
  | [] => rfl
  | [a] => base64Decode_one a
  | [a, b] => base64Decode_two a b
  | a :: b :: c :: rest => by
    rw [base64Encode_three, base64Decode_quad, base64Decode_encode rest]
    rfl

/-- The encoded text has the length and the padding of the standard, and the standard's decoding gives the bytes back. -/
theorem base64_invertible (data : Bytes) :
    (base64Encode data).length = 4 * ((data.length + 2) / 3) ∧
      (∃ letters, base64Encode data = letters ++ List.replicate ((3 - data.length % 3) % 3) pad ∧ ∀ c ∈ letters, c ∈ base64Table) ∧
      base64Decode (base64Encode data) = some data ∧
      ∀ other, base64Encode data = base64Encode other → data = other := by
  have padding : base64Padding data.length = (3 - data.length % 3) % 3 := by
    have cases_ : data.length % 3 < 3 := Nat.mod_lt _ (by decide)
    unfold base64Padding
    generalize data.length % 3 = r at cases_
    rcases (by omega : r = 0 ∨ r = 1 ∨ r = 2) with same | same | same <;> rw [same] <;> rfl
  refine ⟨base64Encode_length data, ⟨(base64Quads data).take ((base64Quads data).length - base64Padding data.length), ?_, ?_⟩,
    base64Decode_encode data, ?_⟩
  · rw [← padding]
    rfl
  · exact fun c member => base64Quads_letters data c (List.mem_of_mem_take member)
  · intro other same
    have decoded := base64Decode_encode data
    rw [same, base64Decode_encode] at decoded
    exact (Option.some.inj decoded).symm

end BlueBird
