/-!
# Powers of two and ten

The sizes of words, the values of bits and the values of decimal places.
-/

namespace RecordGraph

def pow2 (exponent : Nat) : Nat := Nat.pow 2 exponent

def pow10 (exponent : Nat) : Nat := Nat.pow 10 exponent

theorem pow2_add (left right : Nat) : pow2 (left + right) = pow2 left * pow2 right :=
  Nat.pow_add 2 left right

theorem pow2_pos (exponent : Nat) : 0 < pow2 exponent :=
  Nat.two_pow_pos exponent

theorem pow2_le_pow2 {small large : Nat} (le : small ≤ large) : pow2 small ≤ pow2 large :=
  Nat.pow_le_pow_right (by decide) le

theorem pow10_pos (exponent : Nat) : 0 < pow10 exponent :=
  Nat.pow_pos (by decide)

theorem lt_pow2_log2 (number : Nat) : number < pow2 (number.log2 + 1) :=
  Nat.lt_log2_self

theorem pow2_log2_le {number : Nat} (nonzero : number ≠ 0) : pow2 number.log2 ≤ number :=
  Nat.log2_self_le nonzero

end RecordGraph
