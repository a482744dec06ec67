import BridgeLedger.Numeral.Binary
import BridgeLedger.Numeral.Notation

namespace BridgeLedger

/-- A decimal number. The value of `finite negative c e` is `± c * 10 ^ e`; a negative zero keeps
its sign. -/
inductive Decimal where
  | finite (negative : Bool) (coefficient : Nat) (exponent : Int)
  | infinity (negative : Bool)
  | nan (negative : Bool) (signaling : Bool) (payload : Nat)

namespace Decimal

def ofInt (n : Int) : Decimal := .finite (decide (n < 0)) n.natAbs 0

/-- Halves `m * 2 ^ e` into `(m / 2) * 2 ^ (e + 1)` while `m` is even and `e` negative. -/
def reduceBinary : Nat → Nat → Int → Nat × Int
  | 0, m, e => (m, e)
  | fuel + 1, m, e =>
    if m ≠ 0 ∧ m % 2 = 0 ∧ e < 0 then reduceBinary fuel (m / 2) (e + 1) else (m, e)

/-- The exact decimal of a double: `m * 2 ^ e` in lowest terms is `m * 5 ^ -e` times `10 ^ e`
when `e` is negative. -/
def ofFloat (x : Float) : Decimal :=
  match Numeral.Parts.ofFloat x with
  | .zero negative => .finite negative 0 0
  | .infinite negative => .infinity negative
  | .nan negative => .nan negative false 0
  | .finite negative b =>
    let (m, e) := reduceBinary 64 b.significand b.exponent
    if 0 ≤ e then .finite negative (m * 2 ^ e.toNat) 0
    else .finite negative (m * 5 ^ (-e).toNat) e

def isFinite : Decimal → Bool
  | .finite .. => true
  | _ => false

/-- Whether the number is below zero; a negative zero is not. -/
def isNegative : Decimal → Bool
  | .finite negative c _ => negative && c != 0
  | .infinity negative => negative
  | .nan .. => false

/-- The number of digits of a coefficient, one for zero. -/
def digitCount (c : Nat) : Nat := (toString c).length

def adjustedExponent (c : Nat) (e : Int) : Int := e + digitCount c - 1

/-- Whether the finite, non-negative number `c * 10 ^ e` exceeds `bound`, decided on the
adjusted exponents first, so a huge exponent is never expanded. -/
def exceeds (c : Nat) (e : Int) (bound : Nat) : Bool :=
  let a := adjustedExponent c e
  let b := adjustedExponent bound 0
  if c = 0 then false
  else if a ≠ b then decide (b < a)
  else if 0 ≤ e then decide (bound < c * 10 ^ e.toNat)
  else decide (bound * 10 ^ (-e).toNat < c)

def isWhole (c : Nat) (e : Int) : Bool :=
  if 0 ≤ e then true
  else if digitCount c < (-e).toNat then c == 0
  else c % 10 ^ (-e).toNat == 0

def wholePart (c : Nat) (e : Int) : Nat :=
  if c = 0 then 0
  else if 0 ≤ e then c * 10 ^ e.toNat
  else if digitCount c < (-e).toNat then 0
  else c / 10 ^ (-e).toNat

/-- The scientific string of a number: positional when its exponent is at most zero and its
adjusted exponent at least -6, otherwise one digit, a point, the other digits and an exponent. -/
def toSciString : Decimal → String
  | .infinity negative => (if negative then "-" else "") ++ "Infinity"
  | .nan negative signaling payload =>
    (if negative then "-" else "") ++ (if signaling then "sNaN" else "NaN") ++
      (if payload = 0 then "" else toString payload)
  | .finite negative c e =>
    let digits := (toString c).toList
    let count := digits.length
    let adjusted := e + count - 1
    let body :=
      if e ≤ 0 ∧ -6 ≤ adjusted then
        if e = 0 then String.ofList digits
        else
          let whole := (count : Int) + e
          if 0 < whole then
            String.ofList (digits.take whole.toNat) ++ "." ++ String.ofList (digits.drop whole.toNat)
          else "0." ++ Numeral.zeros (-whole).toNat ++ String.ofList digits
      else
        let mantissa := match digits with
          | d :: rest@(_ :: _) => String.ofList (d :: '.' :: rest)
          | _ => String.ofList digits
        mantissa ++ "E" ++ (if 0 ≤ adjusted then "+" else "-") ++ toString adjusted.natAbs
    (if negative then "-" else "") ++ body

/-- The number is the whole number `n`: finite, its sign not below zero, and its value `n`. -/
def Denotes : Decimal → Nat → Prop
  | .finite negative c e, n => (negative = true → c = 0) ∧ c * 10 ^ e.toNat = n * 10 ^ (-e).toNat
  | _, _ => False

theorem wholePart_mul {c : Nat} {e : Int} (whole : isWhole c e = true) :
    c * 10 ^ e.toNat = wholePart c e * 10 ^ (-e).toNat := by
  unfold wholePart
  unfold isWhole at whole
  by_cases zero : c = 0
  · simp [zero]
  rw [if_neg zero]
  by_cases up : 0 ≤ e
  · rw [if_pos up, Int.toNat_eq_zero.mpr (show -e ≤ 0 by omega)]
    simp
  rw [if_neg up, Int.toNat_eq_zero.mpr (by omega)]
  rw [if_neg up] at whole
  by_cases few : digitCount c < (-e).toNat
  · rw [if_pos few] at whole
    simp at whole
    exact absurd whole zero
  · rw [if_neg few] at whole ⊢
    have divides : 10 ^ (-e).toNat ∣ c := Nat.dvd_of_mod_eq_zero (by simpa using whole)
    rw [Nat.div_mul_cancel divides]
    simp

theorem digitCount_le_iff {n k : Nat} (pos : 0 < k) : digitCount n ≤ k ↔ n < 10 ^ k := by
  unfold digitCount
  rw [← String.length_toList, Nat.toString_eq_repr, Nat.toList_repr]
  exact Nat.length_toDigits_le_iff (by decide) pos

end Decimal

end BridgeLedger
