import BridgeLedger.Decimal.Text
import BridgeLedger.Value

namespace BridgeLedger.Decimal

def integerItem? : Value → Option Int
  | .int n => some n
  | .bool b => some (if b then 1 else 0)
  | _ => none

/-- The machine integers that the parts of a decimal number pass through: the sign and each digit
through a signed 64-bit integer, the exponent through a signed size of the same width. -/
inductive Holder where
  | long
  | size
  deriving DecidableEq

/-- Why a caller value has no decimal number. -/
inductive Unreadable where
  | notDecimal
  /-- An integer part does not fit the machine integer it passes through. -/
  | tooLarge (holder : Holder)

def heldItem (holder : Holder) (v : Value) : Except Unreadable Int :=
  match integerItem? v with
  | some n =>
    if -((2 ^ (63 : Nat) : Nat) : Int) ≤ n ∧ n < ((2 ^ (63 : Nat) : Nat) : Int) then .ok n
    else .error (.tooLarge holder)
  | none => .error .notDecimal

def digitItems (items : List Value) : Except Unreadable (List Nat) :=
  items.mapM fun v => do
    let d ← heldItem .long v
    if 0 ≤ d ∧ d ≤ 9 then pure d.toNat else throw .notDecimal

/-- The number of a sign, a coefficient list and an exponent or special mark, checked in that
order but with the third item before the coefficient. -/
def ofParts (sign coefficient third : Value) : Except Unreadable Decimal := do
  let s ← heldItem .long sign
  let negative ← if s = 0 then pure false else if s = 1 then pure true else throw .notDecimal
  let exponent? : Option Int ← match third with
    | .str "F" | .str "n" | .str "N" => pure none
    | .str _ => throw .notDecimal
    | v => some <$> heldItem .size v
  let digits ← match coefficient with
    | .list items => digitItems items
    | _ => throw .notDecimal
  let c := digits.foldl (fun n d => 10 * n + d) 0
  match exponent?, third with
  | some e, _ => if isExact c e then pure (.finite negative c e) else throw .notDecimal
  | none, .str "F" => pure (.infinity negative)
  | none, .str "N" => pure (.nan negative true c)
  | none, _ => pure (.nan negative false c)

/-- The decimal number of a caller value: a text is read by the decimal grammar, an integer or
a double converts exactly, and a list of three items is a sign, digits and an exponent. -/
def read : Value → Except Unreadable Decimal
  | .str s => match ofString? s with
    | some d => .ok d
    | none => .error .notDecimal
  | .int n => .ok (ofInt n)
  | .bool b => .ok (ofInt (if b then 1 else 0))
  | .float x => .ok (ofFloat x)
  | .list [sign, coefficient, third] => ofParts sign coefficient third
  | _ => .error .notDecimal

end BridgeLedger.Decimal
