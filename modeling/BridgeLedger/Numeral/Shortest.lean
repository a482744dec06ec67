import BridgeLedger.Numeral.Binary

namespace BridgeLedger.Numeral

namespace Binary

/-- Whether `c * 10 ^ k` lies in the interval of reals that round to the double. The interval is
measured in quarters of the double's unit, where the double is `4 * significand`. -/
def readsBack (b : Binary) (c : Nat) (k : Int) : Bool :=
  let unit := b.exponent - 2
  let low := 4 * b.significand - (if b.narrowBelow then 1 else 2)
  let high := 4 * b.significand + 2
  let even := b.significand % 2 == 0
  let aboveLow := match compareScaled c k low unit with
    | .gt => true
    | .eq => even
    | .lt => false
  let belowHigh := match compareScaled c k high unit with
    | .lt => true
    | .eq => even
    | .gt => false
  aboveLow && belowHigh

/-- The exponent `E` with `10 ^ E ≤ b < 10 ^ (E + 1)`. The estimate from the binary exponent is
off by at most one, so one step down and one step up settle it. -/
def decimalExponent (b : Binary) : Int :=
  let bits : Int := (Nat.log2 b.significand : Int) + b.exponent
  let guess := Int.fdiv (bits * 30103) 100000
  let lower := if compareScaled 1 guess b.significand b.exponent = .gt then guess - 1 else guess
  if compareScaled 1 (lower + 1) b.significand b.exponent = .gt then lower else lower + 1

/-- The decimal `c * 10 ^ k` on the grid of `n` significant digits below `10 ^ (E + 1)` that reads
back as the double, if either grid neighbour does: the nearer one, and the even one of two at the
same distance. -/
def onGrid (b : Binary) (E : Int) (n : Nat) : Option (Nat × Int) :=
  let k := E - n + 1
  let t := floorScaled b.significand b.exponent k
  let down := b.readsBack t k
  let up := b.readsBack (t + 1) k
  if down && up then
    match compareScaled (2 * t + 1) k (2 * b.significand) b.exponent with
    | .gt => some (t, k)
    | .lt => some (t + 1, k)
    | .eq => some (if t % 2 == 0 then t else t + 1, k)
  else if down then some (t, k)
  else if up then some (t + 1, k)
  else none

end Binary

def trimZeros (c : Nat) (k : Int) : Nat × Int :=
  if h : c ≠ 0 ∧ c % 10 = 0 then trimZeros (c / 10) (k + 1) else (c, k)
termination_by c
decreasing_by omega

/-- The shortest decimal `c * 10 ^ k` that reads back as the double, without trailing zeros.
Seventeen significant digits always suffice. -/
def Binary.shortest (b : Binary) : Nat × Int :=
  let E := b.decimalExponent
  match (List.range 17).findSome? (fun i => b.onGrid E (i + 1)) with
  | some (c, k) => trimZeros c k
  | none => trimZeros (floorScaled b.significand b.exponent (E - 16)) (E - 16)

end BridgeLedger.Numeral
