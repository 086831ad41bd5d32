import AddressPool.Text.Hex
import AddressPool.Text.Numeral

/-! Written numbers read again. Reading goes from the left and takes each digit in turn, so what the
digits before the last come to is the number without its last digit. -/
namespace AddressPool

theorem digitsInduction {base : Nat} (positional : 1 < base) {motive : Nat → List Char → Prop}
    (one : ∀ d, d < base → motive d [d.digitChar])
    (more : ∀ n d digits, 0 < n → d < base → motive n digits →
      motive (base * n + d) (digits ++ [d.digitChar])) (n : Nat) :
    motive n (Nat.toDigits base n) := by
  induction n using Nat.strongRecOn with
  | ind n ih =>
    by_cases small : n < base
    · rw [Nat.toDigits_of_lt_base small]
      exact one n small
    · have large : base ≤ n := Nat.not_lt.mp small
      rw [Nat.toDigits_of_base_le positional large]
      have some : 0 < base := Nat.zero_lt_of_lt positional
      have shorter := ih (n / base) (Nat.div_lt_self (Nat.lt_of_lt_of_le some large) positional)
      have longer := more _ _ _ (Nat.div_pos large some) (Nat.mod_lt n some) shorter
      rwa [Nat.div_add_mod] at longer

theorem memDigits {base n : Nat} {c : Char} (positional : 1 < base)
    (member : c ∈ Nat.toDigits base n) : ∃ d, d < base ∧ c = d.digitChar := by
  revert member
  refine digitsInduction (motive := fun _ digits => c ∈ digits → _) positional ?_ ?_ n
  · intro d small member
    exact ⟨d, small, List.mem_singleton.mp member⟩
  · intro n d digits _ small shorter member
    rcases List.mem_append.mp member with before | last
    · exact shorter before
    · exact ⟨d, small, List.mem_singleton.mp last⟩

namespace Numeral

theorem digitWritten {d : Nat} (small : d < 10) : digit? d.digitChar = some d := by
  have all : ∀ d : Fin 10, digit? d.val.digitChar = some d.val := by decide
  exact all ⟨d, small⟩

theorem readFromWritten {limit n : Nat} (within : n ≤ limit) (rest : List Char) :
    readFrom limit 0 (write n ++ rest) = readFrom limit n rest := by
  revert within rest
  refine digitsInduction (motive := fun n digits => n ≤ limit → ∀ rest,
    readFrom limit 0 (digits ++ rest) = readFrom limit n rest) (by decide) ?_ ?_ n
  · intro d small within rest
    rw [List.singleton_append, readFrom, digitWritten small]
    simp only [Nat.mul_zero, Nat.zero_add, if_neg (Nat.not_lt.mpr within)]
  · intro n d digits _ small shorter within rest
    rw [List.append_assoc, shorter (by omega), List.singleton_append, readFrom, digitWritten small]
    simp only [if_neg (Nat.not_lt.mpr within)]

theorem readWritten {limit n : Nat} (within : n ≤ limit) : read limit (write n) = .ok n := by
  have digits := readFromWritten within []
  rw [List.append_nil] at digits
  have head (rest : List Char) : write n ≠ '+' :: rest := by
    intro plus
    have member : '+' ∈ Nat.toDigits 10 n := by
      rw [write] at plus
      rw [plus]
      exact List.mem_cons_self
    exact absurd (Nat.isDigit_of_mem_toDigits (by decide) (by decide) member) (by decide)
  unfold read
  split
  · next empty => exact absurd empty Nat.toDigits_ne_nil
  · next plus => exact absurd plus (head [])
  · next plus => exact absurd plus (head _)
  · exact digits

end Numeral

namespace Hex

theorem valueWritten {d : Nat} (small : d < 16) : value? d.digitChar = some d := by
  have all : ∀ d : Fin 16, value? d.val.digitChar = some d.val := by decide
  exact all ⟨d, small⟩

theorem valuesWritten (n : Nat) :
    (Nat.toDigits 16 n).foldlM (fun value c => (value? c).map (value * 16 + ·)) 0 = some n := by
  refine digitsInduction (motive := fun n digits =>
    digits.foldlM (fun value c => (value? c).map (value * 16 + ·)) 0 = some n) (by decide) ?_ ?_ n
  · intro d small
    simp [valueWritten small]
  · intro n d digits _ small shorter
    simp [shorter, valueWritten small, Nat.mul_comm]

end Hex
end AddressPool
