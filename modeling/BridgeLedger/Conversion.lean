import BridgeLedger.Display

namespace BridgeLedger

/-- What a conversion error shows of the value it could not convert. -/
inductive Shown where
  | value (v : Value)
  | decimal (d : Decimal)

def Shown.display : Shown → String
  | .value v => v.display
  | .decimal d => d.display

/-- What was wrong with a value that could not be converted. -/
inductive ConversionDetail where
  | invalidColumn (column : String)
  | notDecimal
  | notFinite
  | negative
  | exceedsMaximum
  | notIntegral

def ConversionDetail.text : ConversionDetail → String
  | .invalidColumn column => "invalid " ++ column
  | .notDecimal => "not a decimal number"
  | .notFinite => "value is not finite"
  | .negative => "value is negative"
  | .exceedsMaximum => "value exceeds 2**256 - 1"
  | .notIntegral => "value is not integral"

/-- A value that the type named `typeName` could not hold. -/
structure ConversionError where
  shown : Shown
  typeName : String
  detail : ConversionDetail

/-- A display longer than fifty characters, cut to forty-seven and an ellipsis. -/
def clipDisplay (s : String) : String :=
  if 50 < s.length then String.ofList (s.toList.take 47) ++ "..." else s

def ConversionError.message (e : ConversionError) : String :=
  "Cannot convert " ++ clipDisplay e.shown.display ++ " to " ++ e.typeName ++ ": " ++ e.detail.text

end BridgeLedger
