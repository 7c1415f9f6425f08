import Mathlib.Data.List.Basic

namespace Digits

variable {b : Nat} {value : Char → Nat}

theorem notMem_toDigitsCore {c : Char} (other : ∀ d, Nat.digitChar d ≠ c) (fuel n : Nat) {digits : List Char}
    (absent : c ∉ digits) : c ∉ Nat.toDigitsCore b fuel n digits := by
  induction fuel generalizing n digits with
  | zero => exact absent
  | succ fuel ih =>
    have more : c ∉ Nat.digitChar (n % b) :: digits := by
      rw [List.mem_cons, not_or]
      exact ⟨(other _).symm, absent⟩
    rw [Nat.toDigitsCore]
    split
    · exact more
    · exact ih _ more

theorem notMem_toDigits {c : Char} (other : ∀ d, Nat.digitChar d ≠ c) (n : Nat) : c ∉ Nat.toDigits b n :=
  notMem_toDigitsCore other _ n (by simp)

/-- The number that a text denotes in base `b`. -/
def read (b : Nat) (value : Char → Nat) (text : List Char) : Nat := text.foldl (fun n c => b * n + value c) 0

theorem read_append_digit (text : List Char) (c : Char) :
    read b value (text ++ [c]) = b * read b value text + value c := by
  rw [read, List.foldl_append]
  rfl

theorem read_leftpad (zero : value '0' = 0) (width : Nat) (text : List Char) :
    read b value (text.leftpad width '0') = read b value text := by
  have still (n : Nat) : (List.replicate n '0').foldl (fun n c => b * n + value c) 0 = 0 := by
    induction n with
    | zero => rfl
    | succ n ih => rw [List.replicate_succ, List.foldl_cons, zero, Nat.mul_zero, Nat.zero_add, ih]
  rw [read, List.leftpad, List.foldl_append, still]
  rfl

section Reading

variable (base : 1 < b) (inverse : ∀ d < b, value (Nat.digitChar d) = d)

include base inverse

theorem read_toDigits (n : Nat) : read b value (Nat.toDigits b n) = n := by
  induction n using Nat.strongRecOn with
  | ind n ih =>
    rw [Nat.toDigits_eq_if base]
    split
    · rename_i small
      change b * 0 + value (Nat.digitChar n) = n
      rw [inverse n small, Nat.mul_zero, Nat.zero_add]
    · have smaller : n / b < n := Nat.div_lt_self (by omega) base
      rw [read_append_digit, ih _ smaller, inverse _ (Nat.mod_lt n (by omega)), Nat.div_add_mod]

/-- Numbers that are padded with zeros can still be told apart. -/
theorem leftpad_toDigits_injective {width m n : Nat}
    (same : (Nat.toDigits b m).leftpad width '0' = (Nat.toDigits b n).leftpad width '0') : m = n := by
  have zero : value '0' = 0 := inverse 0 (by omega)
  have read_same := congrArg (read b value) same
  rwa [read_leftpad zero, read_leftpad zero, read_toDigits base inverse, read_toDigits base inverse] at read_same

end Reading

def hexValue (c : Char) : Nat := if c.isDigit then c.toNat - 48 else c.toNat - 87

theorem hexValue_digitChar : ∀ d < 16, hexValue (Nat.digitChar d) = d := by
  decide

end Digits
