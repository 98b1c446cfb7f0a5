import BlueBird.Http.Parser

namespace BlueBird.Http

/-- `%zu`, and `%d` of a number that is not negative. -/
def decimal (n : Nat) : Bytes := ascii (toString n)

/-- `%d` -/
def decimalInt (z : Int) : Bytes := if z < 0 then ch '-' :: decimal z.natAbs else decimal z.toNat

def digitByte (d : Nat) : Byte := ch (Nat.digitChar d)

theorem digitByte_spec : ∀ d : Fin 10, isDigit (digitByte d.val) = true ∧ digitValue (digitByte d.val) = d.val := by decide

theorem isDigit_digitByte {d : Nat} (small : d < 10) : isDigit (digitByte d) = true := (digitByte_spec ⟨d, small⟩).1

theorem digitValue_digitByte {d : Nat} (small : d < 10) : digitValue (digitByte d) = d := (digitByte_spec ⟨d, small⟩).2

theorem decimal_digits (n : Nat) : decimal n = (Nat.toDigits 10 n).map Char.toUInt8 := by
  unfold decimal ascii
  rw [Nat.toString_eq_repr, Nat.toList_repr]

theorem decimal_lt {n : Nat} (small : n < 10) : decimal n = [digitByte n] := by
  rw [decimal_digits, Nat.toDigits_of_lt_base small]
  rfl

theorem decimal_ge {n : Nat} (large : 10 ≤ n) : decimal n = decimal (n / 10) ++ [digitByte (n % 10)] := by
  rw [decimal_digits, decimal_digits, Nat.toDigits_of_base_le (by decide) large, List.map_append]
  rfl

theorem decimal_length_le {n k : Nat} (positive : 0 < k) : (decimal n).length ≤ k ↔ n < 10 ^ k := by
  rw [decimal_digits, List.length_map]
  exact Nat.length_toDigits_le_iff (by decide) positive

theorem decimal_isDigit (n : Nat) : ∀ c ∈ decimal n, isDigit c = true := by
  induction n using Nat.strongRecOn with
  | _ n ih =>
    by_cases small : n < 10
    · rw [decimal_lt small]
      intro c member
      rw [List.mem_singleton.mp member]
      exact isDigit_digitByte small
    · rw [decimal_ge (Nat.le_of_not_lt small)]
      intro c member
      rcases List.mem_append.mp member with front | last
      · exact ih (n / 10) (by omega) c front
      · rw [List.mem_singleton.mp last]
        exact isDigit_digitByte (Nat.mod_lt n (by decide))

theorem decimal_ne_nil (n : Nat) : decimal n ≠ [] := by
  rw [decimal_digits]
  simp

theorem decimal_three {n : Nat} (lower : 100 ≤ n) (upper : n ≤ 999) :
    decimal n = [digitByte (n / 100), digitByte (n / 10 % 10), digitByte (n % 10)] := by
  rw [decimal_ge (by omega), decimal_ge (by omega), Nat.div_div_eq_div_mul, decimal_lt (by omega)]
  rfl

theorem isDigit_range {c : Byte} (digit : isDigit c = true) : ¬ (c < ch '0' ∨ ch '9' < c) := by
  unfold isDigit at digit
  simp only [decide_eq_true_eq] at digit
  rcases digit with ⟨low, high⟩
  rintro (below | above)
  · exact absurd low (UInt8.not_le.mpr below)
  · exact absurd high (UInt8.not_le.mpr above)

theorem contentLengthDigits_append (val : Nat) (xs ys : Bytes) :
    contentLengthDigits val (xs ++ ys) = (contentLengthDigits val xs >>= fun v => contentLengthDigits v ys) := by
  induction xs generalizing val with
  | nil => rfl
  | cons c xs ih =>
    rw [List.cons_append]
    simp only [contentLengthDigits]
    split
    · rfl
    · split
      · rfl
      · exact ih _

theorem contentLengthDigits_decimal {n : Nat} (fits : n ≤ uint64Max) : contentLengthDigits 0 (decimal n) = .ok n := by
  have step : ∀ v d, d < 10 → v * 10 + d ≤ uint64Max → contentLengthDigits v [digitByte d] = .ok (v * 10 + d) := by
    intro v d small room
    unfold contentLengthDigits
    rw [if_neg (isDigit_range (isDigit_digitByte small)), digitValue_digitByte small,
      if_neg (Nat.not_lt.mpr ((Nat.le_div_iff_mul_le (by decide)).mpr (by omega)))]
    rfl
  induction n using Nat.strongRecOn with
  | _ n ih =>
    by_cases small : n < 10
    · rw [decimal_lt small, step 0 n small (by omega), Nat.zero_mul, Nat.zero_add]
    · rw [decimal_ge (Nat.le_of_not_lt small), contentLengthDigits_append, ih (n / 10) (by omega) (by omega)]
      show contentLengthDigits (n / 10) [digitByte (n % 10)] = _
      rw [step (n / 10) (n % 10) (Nat.mod_lt n (by decide)) (by omega)]
      congr 1
      omega

theorem contentLengthDigits_decimal_value {n v : Nat} (read : contentLengthDigits 0 (decimal n) = .ok v) : v = n := by
  have step : ∀ u d w, d < 10 → contentLengthDigits u [digitByte d] = .ok w → w = u * 10 + d := by
    intro u d w small read
    unfold contentLengthDigits at read
    rw [if_neg (isDigit_range (isDigit_digitByte small)), digitValue_digitByte small] at read
    by_cases large : u > (uint64Max - d) / 10
    · rw [if_pos large] at read
      cases read
    · rw [if_neg large] at read
      cases read
      rfl
  induction n using Nat.strongRecOn generalizing v with
  | _ n ih =>
    by_cases small : n < 10
    · rw [decimal_lt small] at read
      rw [step 0 n v small read, Nat.zero_mul, Nat.zero_add]
    · rw [decimal_ge (Nat.le_of_not_lt small), contentLengthDigits_append] at read
      cases front : contentLengthDigits 0 (decimal (n / 10)) with
      | error e =>
        rw [front] at read
        cases read
      | ok u =>
        rw [front] at read
        have last := step u (n % 10) v (Nat.mod_lt n (by decide)) read
        rw [last, ih (n / 10) (by omega) front]
        omega

end BlueBird.Http
