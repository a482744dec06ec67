
namespace BridgeLedger

/-- A dynamically typed value supplied by a caller. Map entries keep their order. -/
inductive Value where
  | int (n : Int)
  | float (x : Float)
  | str (s : String)
  /-- A text holding half of a surrogate pair standing alone: its code points in order, each below
  `0x110000`. Every other text is a `str`. -/
  | points (codes : List Nat)
  | bytes (b : List UInt8)
  | bool (b : Bool)
  | none
  | list (items : List Value)
  /-- A map: its entries in order, each keyed by a text. -/
  | dict (entries : List (Value × Value))
  deriving Inhabited

namespace Value

/-- The name of a value's kind, as messages print it. -/
def kindName : Value → String
  | .int _ => "int"
  | .float _ => "float"
  | .str _ => "str"
  | .points _ => "str"
  | .bytes _ => "bytes"
  | .bool _ => "bool"
  | .none => "NoneType"
  | .list _ => "list"
  | .dict _ => "dict"

def codePoints? : Value → Option (List Nat)
  | .str s => some (s.toList.map Char.toNat)
  | .points codes => some codes
  | _ => Option.none

/-- The integer that a value stands for when integers are accepted: truth values count as
`0` and `1`. -/
def integer? : Value → Option Int
  | .int n => some n
  | .bool b => some (if b then 1 else 0)
  | _ => Option.none

def sameText (a b : Value) : Bool := a.codePoints?.isSome && a.codePoints? == b.codePoints?

/-- Looks a key up in a map's entries; the first entry with the key is the one seen. -/
def find? (entries : List (Value × Value)) (key : Value) : Option Value :=
  (entries.find? fun e => sameText e.1 key).map (·.2)

/-- Byte strings in lexicographic order, a prefix first. -/
def compareBytes : List UInt8 → List UInt8 → Ordering
  | [], [] => .eq
  | [], _ :: _ => .lt
  | _ :: _, [] => .gt
  | a :: rest, b :: more => match compare a b with
    | .eq => compareBytes rest more
    | o => o

def compareCodes : List Nat → List Nat → Ordering
  | [], [] => .eq
  | [], _ :: _ => .lt
  | _ :: _, [] => .gt
  | a :: rest, b :: more => match compare a b with
    | .eq => compareCodes rest more
    | o => o

end Value

end BridgeLedger
