import BridgeLedger.Numeral.Shortest

namespace BridgeLedger.Numeral

/-- The decisions of a notation for doubles. Decimal exponents `x` with
`positionalFrom ≤ x < positionalBelow` are written positionally, the others as a mantissa with
one digit before the point and an exponent of at least `exponentDigits` digits and a sign. -/
structure Notation where
  positionalFrom : Int
  positionalBelow : Int
  pointZero : Bool
  mark : String
  exponentDigits : Nat
  infinity : String
  nan : String

/-- The round-trip notation: positional for decimal exponents from -4 to 15, `.0` after an
integral value, `e` with at least two digits and a sign, `inf` and `nan`. -/
def Notation.roundTrip : Notation where
  positionalFrom := -4
  positionalBelow := 16
  pointZero := true
  mark := "e"
  exponentDigits := 2
  infinity := "inf"
  nan := "nan"

def zeros (n : Nat) : String := String.ofList (List.replicate n '0')

def padded (width n : Nat) : String :=
  let digits := toString n
  zeros (width - digits.length) ++ digits

namespace Notation

/-- Writes the digits of `c * 10 ^ k`, where `c > 0` has no trailing zero. -/
def writeDecimal (f : Notation) (c : Nat) (k : Int) : String :=
  let digits := (toString c).toList
  let count := digits.length
  let x := k + count - 1
  if f.positionalFrom ≤ x ∧ x < f.positionalBelow then
    if 0 ≤ k then
      String.ofList digits ++ zeros k.toNat ++ (if f.pointZero then ".0" else "")
    else
      let whole := (count : Int) + k
      if 0 < whole then
        String.ofList (digits.take whole.toNat) ++ "." ++ String.ofList (digits.drop whole.toNat)
      else
        "0." ++ zeros (-whole).toNat ++ String.ofList digits
  else
    let mantissa := match digits with
      | d :: rest@(_ :: _) => String.ofList (d :: '.' :: rest)
      | _ => String.ofList digits
    mantissa ++ f.mark ++ (if x < 0 then "-" else "+") ++ padded f.exponentDigits x.natAbs

def render (f : Notation) (x : Float) : String :=
  match Parts.ofFloat x with
  | .zero negative => (if negative then "-" else "") ++ (if f.pointZero then "0.0" else "0")
  | .infinite negative => (if negative then "-" else "") ++ f.infinity
  | .nan _ => f.nan
  | .finite negative b =>
    let (c, k) := b.shortest
    (if negative then "-" else "") ++ f.writeDecimal c k

end Notation

end BridgeLedger.Numeral
