import BlueBird.Bytes
import Mathlib.Data.List.GetD

namespace BlueBird

def base64Table : Bytes := ascii "ABCDEFGHIJKLMNOPQRSTUVWXYZabcdefghijklmnopqrstuvwxyz0123456789+/"

def base64Letter (n : Nat) : Byte := base64Table.getD (n &&& 0x3F) 0

def base64Quad (a b c : Byte) : Bytes :=
  let triple := (a.toNat <<< 16) ||| (b.toNat <<< 8) ||| c.toNat
  [base64Letter (triple >>> 18), base64Letter (triple >>> 12), base64Letter (triple >>> 6), base64Letter triple]

/-- The loop of `bb_base64_encode`; octets past the end are 0. -/
def base64Quads : Bytes → Bytes
  | [] => []
  | [a] => base64Quad a 0 0
  | [a, b] => base64Quad a b 0
  | a :: b :: c :: rest => base64Quad a b c ++ base64Quads rest

def base64Padding (length : Nat) : Nat := [0, 2, 1].getD (length % 3) 0

def base64Encode (data : Bytes) : Bytes :=
  let out := base64Quads data
  let padding := base64Padding data.length
  out.take (out.length - padding) ++ List.replicate padding (ch '=')

def isBase64 (c : Byte) : Bool := base64Table.contains c || c == ch '='

theorem base64Letter_mem (n : Nat) : base64Letter n ∈ base64Table := by
  have inside : n &&& 0x3F < base64Table.length := Nat.lt_of_le_of_lt Nat.and_le_right (by decide)
  unfold base64Letter
  rw [List.getD_eq_getElem _ _ inside]
  exact List.getElem_mem inside

theorem base64Quad_letters (a b c : Byte) : ∀ d ∈ base64Quad a b c, d ∈ base64Table := by
  intro d member
  unfold base64Quad at member
  rcases List.mem_cons.mp member with same | member
  · rw [same]
    exact base64Letter_mem _
  rcases List.mem_cons.mp member with same | member
  · rw [same]
    exact base64Letter_mem _
  rcases List.mem_cons.mp member with same | member
  · rw [same]
    exact base64Letter_mem _
  · rw [List.mem_singleton.mp member]
    exact base64Letter_mem _

theorem base64Quads_letters : (data : Bytes) → ∀ c ∈ base64Quads data, c ∈ base64Table
  | [], _, member => by cases member
  | [a], c, member => base64Quad_letters a 0 0 c member
  | [a, b], c, member => base64Quad_letters a b 0 c member
  | a :: b :: d :: rest, c, member => by
    rw [base64Quads] at member
    rcases List.mem_append.mp member with here | later
    · exact base64Quad_letters a b d c here
    · exact base64Quads_letters rest c later

theorem base64Encode_isBase64 (data : Bytes) : ∀ c ∈ base64Encode data, isBase64 c = true := by
  intro c member
  unfold base64Encode at member
  rcases List.mem_append.mp member with letters | padding
  · unfold isBase64
    rw [List.contains_iff_mem.mpr (base64Quads_letters data c (List.mem_of_mem_take letters))]
    rfl
  · rw [List.eq_of_mem_replicate padding]
    rfl

theorem base64Quad_length (a b c : Byte) : (base64Quad a b c).length = 4 := rfl

theorem base64Quads_length : (data : Bytes) → (base64Quads data).length = 4 * ((data.length + 2) / 3)
  | [] => rfl
  | [a] => (base64Quad_length a 0 0).trans (by decide : 4 = 4 * ((1 + 2) / 3))
  | [a, b] => (base64Quad_length a b 0).trans (by decide : 4 = 4 * ((2 + 2) / 3))
  | a :: b :: c :: rest => by
    rw [base64Quads, List.length_append, base64Quads_length rest]
    show 4 + 4 * ((rest.length + 2) / 3) = 4 * ((rest.length + 3 + 2) / 3)
    omega

theorem base64Padding_le (data : Bytes) : base64Padding data.length ≤ (base64Quads data).length := by
  rw [base64Quads_length data]
  have cases_ : data.length % 3 < 3 := Nat.mod_lt _ (by decide)
  have padding : base64Padding data.length ≤ 2 * (data.length % 3) := by
    unfold base64Padding
    generalize data.length % 3 = r at cases_
    rcases (by omega : r = 0 ∨ r = 1 ∨ r = 2) with same | same | same <;> rw [same] <;> decide
  omega

/-- The length that `bb_base64_encode` allocates, without the NUL. -/
theorem base64Encode_length (data : Bytes) : (base64Encode data).length = 4 * ((data.length + 2) / 3) := by
  have whole := base64Quads_length data
  have few := base64Padding_le data
  unfold base64Encode
  rw [List.length_append, List.length_take, List.length_replicate]
  omega

end BlueBird
