import BridgeLedger.Numeral.Binary

namespace BridgeLedger.Numeral

/-- `n / d` rounded to the nearest whole number, ties to the even one. -/
def roundHalfEven (n d : Nat) : Nat :=
  let q := n / d
  let r := n % d
  if 2 * r < d then q else if d < 2 * r then q + 1 else if q % 2 = 0 then q else q + 1

/-- A signed binary fraction `±magnitude * 2 ^ exponent`. -/
structure BinaryFraction where
  negative : Bool
  magnitude : Nat
  exponent : Int

namespace BinaryFraction

def ofNat (n : Nat) : BinaryFraction := ⟨false, n, 0⟩

/-- The exact value of a finite double, none for an infinity or a NaN. -/
def ofFloat? (x : Float) : Option BinaryFraction :=
  match Parts.ofFloat x with
  | .zero negative => some ⟨negative, 0, 0⟩
  | .finite negative b => some ⟨negative, b.significand, b.exponent⟩
  | _ => none

/-- The signed integer `±magnitude * 2 ^ (exponent - base)`, exact when `base ≤ exponent`. -/
def scaledTo (a : BinaryFraction) (base : Int) : Int :=
  let n : Int := (a.magnitude * 2 ^ (a.exponent - base).toNat : Nat)
  if a.negative then -n else n

def ofScaled (n : Int) (base : Int) : BinaryFraction := ⟨decide (n < 0), n.natAbs, base⟩

def compare (a b : BinaryFraction) : Ordering :=
  let base := min a.exponent b.exponent
  Ord.compare (a.scaledTo base) (b.scaledTo base)

def lt (a b : BinaryFraction) : Bool := a.compare b == .lt

def neg (a : BinaryFraction) : BinaryFraction := { a with negative := !a.negative }

def add (a b : BinaryFraction) : BinaryFraction :=
  let base := min a.exponent b.exponent
  ofScaled (a.scaledTo base + b.scaledTo base) base

def mul (a b : BinaryFraction) : BinaryFraction :=
  ⟨a.negative != b.negative, a.magnitude * b.magnitude, a.exponent + b.exponent⟩

def truncate (a : BinaryFraction) : Nat :=
  a.magnitude * 2 ^ a.exponent.toNat / 2 ^ (-a.exponent).toNat

/-- The double of a binary fraction already on the grid of doubles; a magnitude of `2 ^ 1024` or
more is infinite. -/
def toFloat (a : BinaryFraction) : Float :=
  let sign : Nat := if a.negative then 2 ^ (63 : Nat) else 0
  if a.magnitude = 0 then Float.ofBits (UInt64.ofNat sign)
  else
    let top : Nat := a.magnitude.log2
    let lead : Int := top + a.exponent
    if 1023 < lead then Float.ofBits (UInt64.ofNat (sign + 2047 * 2 ^ (52 : Nat)))
    else if lead < -1022 then
      Float.ofBits (UInt64.ofNat (sign + a.magnitude * 2 ^ (a.exponent + 1074).toNat))
    else
      let fraction : Nat :=
        a.magnitude * 2 ^ ((52 : Int) - top).toNat / 2 ^ ((top : Int) - 52).toNat - 2 ^ (52 : Nat)
      Float.ofBits (UInt64.ofNat (sign + (lead + 1023).toNat * 2 ^ (52 : Nat) + fraction))

end BinaryFraction

/-- A binary floating-point format: how many leading bits it keeps, and for a format with numbers
below its normal range, the exponent of its least step. -/
structure Format where
  precision : Nat
  least : Option Int

namespace Format

def double : Format := ⟨53, some (-1074)⟩

/-- The extended format: 64 bits, without a lower limit that matters here. -/
def extended : Format := ⟨64, none⟩

/-- The exponent of the leading bit of `n / d`, for positive `n` and `d`: the `e` with
`2 ^ e ≤ n / d < 2 ^ (e + 1)`. -/
def leadingExponent (n d : Nat) : Int :=
  let e : Int := (n.log2 : Int) - d.log2
  if n * 2 ^ (-e).toNat < d * 2 ^ e.toNat then e - 1 else e

/-- The number `±n / d` rounded to the format, ties to the even last bit. -/
def roundRatio (f : Format) (negative : Bool) (n d : Nat) : BinaryFraction :=
  if n = 0 ∨ d = 0 then ⟨negative, 0, 0⟩
  else
    let step := leadingExponent n d - f.precision + 1
    let step := match f.least with
      | some least => max step least
      | none => step
    ⟨negative, roundHalfEven (n * 2 ^ (-step).toNat) (d * 2 ^ step.toNat), step⟩

def round (f : Format) (a : BinaryFraction) : BinaryFraction :=
  f.roundRatio a.negative (a.magnitude * 2 ^ a.exponent.toNat) (2 ^ (-a.exponent).toNat)

/-- The number `c * 10 ^ k` rounded to the format. -/
def ofDecimal (f : Format) (c : Nat) (k : Int) : BinaryFraction :=
  f.roundRatio false (c * 10 ^ k.toNat) (10 ^ (-k).toNat)

/-- A sum rounded to the format: formed exactly and rounded once, as a floating-point unit does
for one operation, so a chain of operations rounds after each step. -/
def add (f : Format) (a b : BinaryFraction) : BinaryFraction := f.round (a.add b)

def sub (f : Format) (a b : BinaryFraction) : BinaryFraction := f.round (a.add b.neg)

def mul (f : Format) (a b : BinaryFraction) : BinaryFraction := f.round (a.mul b)

def div (f : Format) (a b : BinaryFraction) : BinaryFraction :=
  f.roundRatio (a.negative != b.negative) (a.magnitude * 2 ^ (a.exponent - b.exponent).toNat)
    (b.magnitude * 2 ^ (b.exponent - a.exponent).toNat)

end Format

end BridgeLedger.Numeral
