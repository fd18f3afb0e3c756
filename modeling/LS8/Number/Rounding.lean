set_option autoImplicit false

namespace LS8.Rounding

def nearest (numerator denominator : Nat) : Nat :=
  let whole := numerator / denominator
  let twice := 2 * (numerator % denominator)
  if twice < denominator ∨ twice = denominator ∧ whole % 2 = 0 then whole else whole + 1

theorem nearest_within_half (numerator : Nat) {denominator : Nat} (positive : 0 < denominator) :
    2 * numerator ≤ 2 * (denominator * nearest numerator denominator) + denominator ∧
      2 * (denominator * nearest numerator denominator) ≤ 2 * numerator + denominator := by
  have parts := Nat.div_add_mod numerator denominator
  have small := Nat.mod_lt numerator positive
  simp only [nearest]
  split
  · omega
  · rw [Nat.mul_add]
    omega

/-- The number `numerator / 2 ^ scale`. -/
structure BinaryFraction where
  numerator : Nat
  scale : Nat
  deriving DecidableEq, Repr

def significantBits : Nat := 53

namespace BinaryFraction

/-- The scale at which a quotient below `2 ^ significantBits` has all its significant bits. -/
def scaleOf (numerator denominator : Nat) : Nat :=
  let least := significantBits - 1 + denominator.log2 - numerator.log2
  if numerator <<< least < denominator <<< (significantBits - 1) then least + 1 else least

def ofQuotient (numerator denominator : Nat) : BinaryFraction :=
  let scale := if numerator = 0 then 0 else scaleOf numerator denominator
  ⟨nearest (numerator <<< scale) denominator, scale⟩

def hundredfold (fraction : BinaryFraction) : BinaryFraction :=
  ofQuotient (100 * fraction.numerator) (1 <<< fraction.scale)

def hundredths (fraction : BinaryFraction) : Nat :=
  nearest (100 * fraction.numerator) (1 <<< fraction.scale)

end BinaryFraction

example :
    (BinaryFraction.ofQuotient 1 32).hundredfold.hundredths = 312 ∧
      (BinaryFraction.ofQuotient 3 32).hundredfold.hundredths = 938 := by
  decide +kernel

end LS8.Rounding
