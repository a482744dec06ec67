import BridgeLedger.Numeral.BinaryFraction
import BridgeLedger.Text.Digit

namespace BridgeLedger

open Numeral

/-- How much of a text is a number. -/
inductive Coverage where
  /-- Not all of the text is a number. -/
  | short
  /-- All of it, written as an integer. -/
  | whole
  /-- All of it, with a point or an exponent. -/
  | decimal
  deriving DecidableEq

structure NumericScan where
  negative : Bool
  /-- The value of the digits before any point, all of them. -/
  whole : Nat
  /-- The significand of the kept digits. -/
  significand : Nat
  /-- The power of ten that the significand is scaled by. -/
  exponent : Int
  coverage : Coverage

namespace NumericScan

/-- Once the significand reaches this, later digits are not kept. -/
def keepLimit : Nat := 922337203685477579

def wholeDigits (s : Nat) : List Char → Nat × Nat
  | c :: rest =>
    let s := 10 * s + (c.toNat - 48)
    if keepLimit ≤ s then (s, rest.length) else wholeDigits s rest
  | [] => (s, 0)

def fractionDigits (s : Nat) (ds : List Char) : Nat × Nat :=
  ds.foldl (fun (s, kept) c => if s < keepLimit then (10 * s + (c.toNat - 48), kept + 1) else (s, kept))
    (s, 0)

/-- The value of exponent digits; past four digits the value saturates at `10000`, one more digit
being taken while it is below that. -/
def exponentDigits (ds : List Char) : Nat :=
  ds.foldl (fun e c => if e < 10000 then 10 * e + (c.toNat - 48) else 10000) 0

def isBlank (c : Char) : Bool := c == ' ' || (9 ≤ c.toNat && c.toNat ≤ 13)

/-- Scans a text for a number: blanks, a sign, digits with an optional point and exponent, then
blanks; digits past `keepLimit` are not kept but shift the decimal exponent. -/
def ofChars (cs : List Char) : NumericScan :=
  let cs := cs.dropWhile isBlank
  let (negative, body) := match cs with
    | '-' :: rest => (true, rest)
    | '+' :: rest => (false, rest)
    | rest => (false, rest)
  let wholeRun := body.takeWhile Char.isDigit
  let afterWhole := body.dropWhile Char.isDigit
  let (s, dropped) := wholeDigits 0 wholeRun
  let (point, fraction, afterFraction) := match afterWhole with
    | '.' :: rest => (true, rest.takeWhile Char.isDigit, rest.dropWhile Char.isDigit)
    | rest => (false, [], rest)
  let (s, kept) := fractionDigits s fraction
  let (mark, markNegative, powerRun, afterPower) : Bool × Bool × List Char × List Char :=
    match afterFraction with
    | c :: rest =>
      if c == 'e' || c == 'E' then
        let (minus, ds) := match rest with
          | '-' :: ds => (true, ds)
          | '+' :: ds => (false, ds)
          | ds => (false, ds)
        (true, minus, ds.takeWhile Char.isDigit, ds.dropWhile Char.isDigit)
      else (false, false, [], c :: rest)
    | [] => (false, false, [], [])
  let power : Int := exponentDigits powerRun
  let hasDigits := !(wholeRun.isEmpty && fraction.isEmpty)
  let complete := (afterPower.dropWhile isBlank).isEmpty && hasDigits && (!mark || !powerRun.isEmpty)
  { negative
    whole := Text.digitsValue wholeRun
    significand := s
    exponent := (if markNegative then -power else power) + dropped - kept
    coverage := if !complete then .short else if point || mark then .decimal else .whole }

/-- Moves powers of ten from the exponent `e` into the significand while it stays below the limit
of signed 64-bit integers over ten. -/
def raise : Nat → Nat → Nat × Nat
  | s, 0 => (s, 0)
  | s, e + 1 => if 922337203685477580 ≤ s then (s, e + 1) else raise (10 * s) e

def lower : Nat → Nat → Nat × Nat
  | s, 0 => (s, 0)
  | s, e + 1 => if s % 10 = 0 then lower (s / 10) e else (s, e + 1)

/-- `10 ^ e` in the extended format: `r` times the powers `x`, `x ^ 2`, `x ^ 4`, ... picked by the
bits of `e`, each square rounded. -/
def tenPower (e : Nat) (x r : BinaryFraction) : BinaryFraction :=
  let r := if e % 2 = 1 then Format.extended.mul r x else r
  if h : e / 2 = 0 then r else tenPower (e / 2) (Format.extended.mul x x) r
termination_by e
decreasing_by omega

def largeStep : BinaryFraction := Format.double.ofDecimal 1 308

/-- The double that the scan denotes: the significand scaled by a power of ten formed in the
extended format, then rounded to a double, so the result rounds twice and is not always the
nearest double. -/
def value (r : NumericScan) : Float :=
  let signed (a : BinaryFraction) : BinaryFraction := { a with negative := r.negative }
  if r.significand = 0 then (signed (.ofNat 0)).toFloat
  else
    let up := decide (0 ≤ r.exponent)
    let (s, e) := if up then raise r.significand r.exponent.toNat
      else lower r.significand (-r.exponent).toNat
    let s := BinaryFraction.ofNat s
    let scaled (scale : BinaryFraction) : BinaryFraction :=
      Format.double.round (if up then Format.extended.mul s scale else Format.extended.div s scale)
    if e = 0 then (signed (Format.double.round s)).toFloat
    else if e ≤ 307 then (signed (scaled (tenPower e (.ofNat 10) (.ofNat 1)))).toFloat
    else if e < 342 then
      let first := scaled (tenPower (e - 308) (.ofNat 10) (.ofNat 1))
      let last := if up then Format.double.mul first largeStep else Format.double.div first largeStep
      (signed last).toFloat
    else if up then (signed ⟨false, 1, 1024⟩).toFloat
    else (signed (.ofNat 0)).toFloat

end NumericScan

end BridgeLedger
