import BridgeLedger.Numeral.Power

namespace BridgeLedger.Numeral

/-- A positive finite double: `significand * 2 ^ exponent`. `narrowBelow` holds when the next
double below lies at half the distance of the next double above. -/
structure Binary where
  significand : Nat
  exponent : Int
  narrowBelow : Bool

/-- The kinds of double, each with its sign. -/
inductive Parts where
  | zero (negative : Bool)
  | finite (negative : Bool) (magnitude : Binary)
  | infinite (negative : Bool)
  | nan (negative : Bool)

/-- The parts of a double, read off its bits: one sign bit, eleven exponent bits, fifty-two
fraction bits. -/
def Parts.ofFloat (x : Float) : Parts :=
  let bits : Nat := x.toBits.toNat
  let negative := decide (2 ^ (63 : Nat) ≤ bits)
  let biased : Nat := bits / 2 ^ (52 : Nat) % 2 ^ (11 : Nat)
  let fraction : Nat := bits % 2 ^ (52 : Nat)
  if biased = 2047 then
    if fraction = 0 then .infinite negative else .nan negative
  else if biased = 0 then
    if fraction = 0 then .zero negative else .finite negative ⟨fraction, -1074, false⟩
  else
    .finite negative ⟨fraction + 2 ^ (52 : Nat), (biased : Int) - 1075, fraction = 0 && 1 < biased⟩

/-- `a * 10 ^ k` and `b * 2 ^ p`, compared exactly. -/
def compareScaled (a : Nat) (k : Int) (b : Nat) (p : Int) : Ordering :=
  compare (a * 10 ^ k.toNat * 2 ^ (-p).toNat) (b * 2 ^ p.toNat * 10 ^ (-k).toNat)

def floorScaled (b : Nat) (p k : Int) : Nat :=
  b * 2 ^ p.toNat * 10 ^ (-k).toNat / (2 ^ (-p).toNat * 10 ^ k.toNat)

def Binary.numerator (b : Binary) : Nat := b.significand * 2 ^ b.exponent.toNat

def Binary.denominator (b : Binary) : Nat := 2 ^ (-b.exponent).toNat

end BridgeLedger.Numeral
