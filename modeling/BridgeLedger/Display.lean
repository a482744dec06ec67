import BridgeLedger.Value
import BridgeLedger.Decimal.Basic
import BridgeLedger.Numeral.Notation
import BridgeLedger.Text.Quoted

namespace BridgeLedger

namespace Value

mutual

/-- The display of a value inside a message: texts and byte strings quoted, truth values as
`True` and `False`, the absent value as `None`, lists in brackets and maps in braces. -/
def display : Value → String
  | .int n => toString n
  | .float x => Numeral.Notation.roundTrip.render x
  | .str s => Text.quoteText s
  | .points codes => Text.quotePoints codes
  | .bytes b => Text.quoteBytes b
  | .bool b => if b then "True" else "False"
  | .none => "None"
  | .list items => "[" ++ ", ".intercalate (displayItems items) ++ "]"
  | .dict entries => "\x7b" ++ ", ".intercalate (displayEntries entries) ++ "\x7d"

def displayItems : List Value → List String
  | [] => []
  | v :: rest => display v :: displayItems rest

/-- The displays of the entries of a map, each as `key: value`. -/
def displayEntries : List (Value × Value) → List String
  | [] => []
  | (k, v) :: rest => (display k ++ ": " ++ display v) :: displayEntries rest

end

end Value

def Decimal.display (d : Decimal) : String :=
  "Decimal(" ++ Text.quoteText d.toSciString ++ ")"

end BridgeLedger
