import BridgeLedger.Value
import BridgeLedger.Text.Hex

namespace BridgeLedger

/-- A byte string of exactly `n` bytes. -/
@[ext] structure FixedBytes (n : Nat) where
  data : List UInt8
  length_eq : data.length = n
  deriving DecidableEq

abbrev TxHash := FixedBytes 32

abbrev TokenAddress := FixedBytes 20

/-- Why a value is no byte string of length `n`. -/
inductive BytesError where
  | notBytes (n : Nat) (kind : String)
  | wrongLength (n : Nat) (length : Nat)

namespace FixedBytes

def typeName (n : Nat) : String := "Bytes" ++ toString n

/-- The byte string of a caller value of exactly `n` bytes. -/
def ofValue (n : Nat) : Value → Except BytesError (FixedBytes n)
  | .bytes b => if h : b.length = n then .ok ⟨b, h⟩ else .error (.wrongLength n b.length)
  | v => .error (.notBytes n v.kindName)

theorem ofValue_bytes {n : Nat} (x : FixedBytes n) : ofValue n (.bytes x.data) = .ok x := by
  rw [ofValue, dif_pos x.length_eq]

/-- The text of a byte string: `0x` and two lowercase hex digits per byte. -/
def hex {n : Nat} (x : FixedBytes n) : String := "0x" ++ Text.hexOfBytes x.data

/-- The display of a byte string: its type's name and its hex text in parentheses. -/
def display {n : Nat} (x : FixedBytes n) : String := typeName n ++ "(" ++ x.hex ++ ")"

end FixedBytes

def BytesError.message : BytesError → String
  | .notBytes n kind => FixedBytes.typeName n ++ " expects bytes, got " ++ kind
  | .wrongLength n length =>
    FixedBytes.typeName n ++ " expects exactly " ++ toString n ++ " bytes, got " ++ toString length

end BridgeLedger
