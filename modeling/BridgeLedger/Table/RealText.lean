import BridgeLedger.Numeral.BinaryFraction

namespace BridgeLedger

open Numeral

namespace RealText

def iterateWhile {α : Type} (cond : α → Bool) (step : α → α) : Nat → α → α
  | 0, a => a
  | fuel + 1, a => if cond a then iterateWhile cond step fuel (step a) else a

def constant (c : Nat) (k : Int) : BinaryFraction := Format.double.ofDecimal c k

/-- The magnitude scaled into `[1, 10)` and its decimal exponent, for a positive magnitude. -/
def normalize (x : BinaryFraction) : BinaryFraction × Int :=
  let ext := Format.extended
  let grow (factor : BinaryFraction) (power : Int) (st : BinaryFraction × Int) : BinaryFraction × Int :=
    iterateWhile
      (fun (scale, exp) => !(x.lt (ext.mul factor scale)) && exp ≤ 350)
      (fun (scale, exp) => (ext.mul scale factor, exp + power)) 400 st
  let st := grow (constant 1 100) 100 (.ofNat 1, 0)
  let st := grow (constant 1 10) 10 st
  let (scale, exp) := grow (.ofNat 10) 1 st
  let x := ext.div x scale
  let small := constant 1 (-8)
  let (x, exp) := iterateWhile (fun (x, _) => x.lt small)
    (fun (x, exp) => (ext.mul x (constant 1 8), exp - 8)) 400 (x, exp)
  iterateWhile (fun (x, _) => x.lt (.ofNat 1))
    (fun (x, exp) => (ext.mul x (.ofNat 10), exp - 1)) 400 (x, exp)

/-- The next digit of what is left, and what is left after it; `budget` digits are real and the
rest are zeros. -/
def nextDigit (st : BinaryFraction × Nat) : Char × (BinaryFraction × Nat) :=
  let (x, budget) := st
  match budget with
  | 0 => ('0', st)
  | budget + 1 =>
    let d := x.truncate
    let ext := Format.extended
    (Char.ofNat (48 + d), (ext.mul (ext.sub x (.ofNat d)) (.ofNat 10), budget))

def digits : Nat → BinaryFraction × Nat → List Char × (BinaryFraction × Nat)
  | 0, st => ([], st)
  | n + 1, st =>
    let (c, st) := nextDigit st
    let (cs, st) := digits n st
    (c :: cs, st)

/-- The rounding term: half a unit in the fifteenth significant digit. -/
def rounder : BinaryFraction := Format.double.mul (constant 5 (-5)) (constant 1 (-10))

def exponentText (n : Nat) : List Char :=
  let hundreds := if 100 ≤ n then [Char.ofNat (48 + n / 100)] else []
  let n := n % 100
  hundreds ++ [Char.ofNat (48 + n / 10), Char.ofNat (48 + n % 10)]

/-- The text of a nonnegative magnitude with the sign already chosen. -/
def ofMagnitude (sign : String) (x : BinaryFraction) : String :=
  let ext := Format.extended
  let (x, exp) := if x.magnitude = 0 then (x, 0) else normalize x
  let x := ext.add x rounder
  let (x, exp) := if x.lt (.ofNat 10) then (x, exp) else (ext.mul x (constant 1 (-1)), exp + 1)
  let positional := decide (-4 ≤ exp ∧ exp ≤ 14)
  let places : Nat := if positional then (14 - exp).toNat else 14
  let lead : Int := if positional then exp else 0
  let st := (x, 26)
  let (before, st) := if lead < 0 then (['0'], st) else digits (lead + 1).toNat st
  let zeros := List.replicate (-lead - 1).toNat '0'
  let (after, _) := digits (places - zeros.length) st
  let body := (before ++ '.' :: zeros ++ after).reverse.dropWhile (· == '0')
  let body := (if body.head? = some '.' then '0' :: body else body).reverse
  let suffix := if positional then ""
    else "e" ++ (if exp < 0 then "-" else "+") ++ String.ofList (exponentText exp.natAbs)
  sign ++ String.ofList body ++ suffix

end RealText

/-- The text that a double is stored as in a text column: fifteen significant digits, positional
for decimal exponents from -4 to 14 and otherwise with `e`, trailing zeros dropped but one digit
kept after the point. -/
def realText (x : Float) : String :=
  match BinaryFraction.ofFloat? x with
  | some a => if a.negative && a.magnitude ≠ 0 then RealText.ofMagnitude "-" a.neg
    else RealText.ofMagnitude "" { a with negative := false }
  | none => if x.isNaN then "NaN" else if x < 0 then "-Inf" else "Inf"

end BridgeLedger
