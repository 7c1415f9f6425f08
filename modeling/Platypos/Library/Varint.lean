import Mathlib.Algebra.Group.Nat.Defs
import Platypos.Library.PrefixCodec

namespace Varint

open PrefixCodec

/-- Base-128 digits, least significant first, with the high bit set on all but the last. At most `count` of them. -/
def encode : (count value : Nat) → List UInt8
  | 0, _ => []
  | count + 1, value =>
    if value < 128 then [UInt8.ofNat value] else UInt8.ofNat (value % 128 + 128) :: encode count (value / 128)

theorem encode_ne_nil (count value : Nat) : encode (count + 1) value ≠ [] := by
  unfold encode
  split <;> simp

section Decode

variable {ε : Type} (eof bad : ε) (last : UInt8)

def pop : StateT (List UInt8) (Except ε) UInt8 := fun input =>
  match input with
  | [] => .error eof
  | byte :: rest => .ok (byte, rest)

def decode : (count : Nat) → StateT (List UInt8) (Except ε) Nat
  | 0 => throw bad
  | count + 1 => do
    let byte ← pop eof
    if byte.toNat < 128 then
      if count = 0 ∧ last < byte then throw bad else return byte.toNat
    else
      let rest ← decode count
      return byte.toNat - 128 + 128 * rest

theorem reads_pop (byte : UInt8) : Reads eof (pop eof) [byte] byte where
  whole _ := rfl
  cut front back split more := by
    cases front with
    | nil => rfl
    | cons x front => simp_all

theorem reads_last {count value : Nat} (digit : value < 128) (fits : count = 0 → value ≤ last.toNat) :
    Reads eof (decode eof bad last (count + 1)) [UInt8.ofNat value] value := by
  have number : (UInt8.ofNat value).toNat = value := by
    rw [UInt8.toNat_ofNat']
    omega
  have allowed : ¬ (count = 0 ∧ last < UInt8.ofNat value) := by
    rintro ⟨single, larger⟩
    have bound := fits single
    rw [UInt8.lt_iff_toNat_lt, number] at larger
    omega
  have read : Reads eof (decode eof bad last (count + 1)) ([UInt8.ofNat value] ++ []) value := by
    apply (reads_pop eof (UInt8.ofNat value)).bind
    rw [number, if_pos digit, if_neg allowed]
    exact Reads.pure value
  exact read

theorem reads_more {count value : Nat} {bytes : List UInt8}
    (rest : Reads eof (decode eof bad last count) bytes (value / 128)) :
    Reads eof (decode eof bad last (count + 1)) (UInt8.ofNat (value % 128 + 128) :: bytes) value := by
  have number : (UInt8.ofNat (value % 128 + 128)).toNat = value % 128 + 128 := by
    rw [UInt8.toNat_ofNat']
    omega
  have total : value % 128 + 128 - 128 + 128 * (value / 128) = value := by omega
  have read : Reads eof (decode eof bad last (count + 1)) ([UInt8.ofNat (value % 128 + 128)] ++ bytes) value := by
    apply (reads_pop eof (UInt8.ofNat (value % 128 + 128))).bind
    rw [number, if_neg (by omega)]
    have shifted := rest.last fun rest => value % 128 + 128 - 128 + 128 * rest
    rwa [total] at shifted
  exact read

theorem reads_decode {count value : Nat} (small : last.toNat < 128) (fits : value < (last.toNat + 1) * 128 ^ count) :
    Reads eof (decode eof bad last (count + 1)) (encode (count + 1) value) value := by
  induction count generalizing value with
  | zero =>
    rw [Nat.pow_zero, Nat.mul_one] at fits
    rw [encode, if_pos (by omega)]
    exact reads_last eof bad last (by omega) fun _ => by omega
  | succ count ih =>
    rw [encode]
    split
    · rename_i digit
      exact reads_last eof bad last digit (by simp)
    · apply reads_more
      apply ih
      rw [Nat.pow_succ, ← Nat.mul_assoc] at fits
      omega

end Decode

end Varint
