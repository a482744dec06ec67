import BridgeLedger.Value
import BridgeLedger.Text.Escaped
import BridgeLedger.Numeral.Binary
import BridgeLedger.Table.NumericText
import BridgeLedger.Table.RealText

namespace BridgeLedger

/-- A stored cell: null, a signed 64-bit integer, a double, a text or a blob. -/
inductive Cell where
  | null
  | integer (n : Int)
  | real (x : Float)
  | text (s : String)
  | blob (b : List UInt8)
  deriving Inhabited

/-- The smallest and one past the largest integer that a cell holds. -/
def Cell.integerLow : Int := -((2 ^ (63 : Nat) : Nat) : Int)

def Cell.integerHigh : Int := ((2 ^ (63 : Nat) : Nat) : Int)

/-- The exact order of a double and an integer. -/
def compareFloatInt (x : Float) (n : Int) : Ordering :=
  match Numeral.Parts.ofFloat x with
  | .zero _ => compare 0 n
  | .nan _ => .lt
  | .infinite negative => if negative then .lt else .gt
  | .finite negative b =>
    let num : Int := b.numerator
    let den : Int := b.denominator
    let num := if negative then -num else num
    compare num (n * den)

namespace Cell

/-- The storage class of a cell, in the order of classes. -/
def rank : Cell → Nat
  | .null => 0
  | .integer _ => 1
  | .real _ => 1
  | .text _ => 2
  | .blob _ => 3

/-- The order of cells: by class, then numbers by value, texts by code points and blobs byte by
byte, a prefix first. -/
def compare : Cell → Cell → Ordering
  | .null, .null => .eq
  | .integer m, .integer n => Ord.compare m n
  | .integer m, .real x => (compareFloatInt x m).swap
  | .real x, .integer n => compareFloatInt x n
  | .real x, .real y => if x < y then .lt else if x == y then .eq else .gt
  | .text s, .text t => Ord.compare s t
  | .blob a, .blob b => Value.compareBytes a b
  | a, b => Ord.compare a.rank b.rank

def same (a b : Cell) : Bool := a.compare b == .eq

def le (a b : Cell) : Bool := a.compare b != .gt

def toValue : Cell → Value
  | .null => .none
  | .integer n => .int n
  | .real x => .float x
  | .text s => .str s
  | .blob b => .bytes b

/-- Why a caller value cannot be stored in a cell. -/
inductive BindError where
  | tooWide
  /-- A text holding surrogate halves, which have no UTF-8 form. -/
  | unencodable (gap : Text.EncodingGap)
  | unsupported (kind : String)

/-- The cell that a caller value is stored as: truth values as integers, a NaN as null. -/
def ofValue : Value → Except BindError Cell
  | .int n => if integerLow ≤ n ∧ n < integerHigh then .ok (.integer n) else .error .tooWide
  | .bool b => .ok (.integer (if b then 1 else 0))
  | .float x => .ok (if x.isNaN then .null else .real x)
  | .str s => .ok (.text s)
  | .points codes => match Text.strictGap? codes with
    | some gap => .error (.unencodable gap)
    | none => .ok (.text (String.ofList (codes.map Char.ofNat)))
  | .bytes b => .ok (.blob b)
  | .none => .ok .null
  | v => .error (.unsupported v.kindName)

end Cell

def wholeInteger? (x : Float) : Option Int :=
  match Numeral.Parts.ofFloat x with
  | .zero _ => some 0
  | .finite negative b =>
    if b.numerator % b.denominator = 0 then
      let n : Int := b.numerator / b.denominator
      let n := if negative then -n else n
      if Cell.integerLow < n ∧ n < Cell.integerHigh - 1 then some n else none
    else none
  | _ => none

inductive Affinity where
  | integer
  | text
  | blob

def Affinity.integerOfReal (x : Float) : Cell :=
  match wholeInteger? x with
  | some n => .integer n
  | none => .real x

/-- The cell that a column of an affinity stores for a cell written to it. A text converts in a
column of integer affinity when all of it is a number: one written as an integer that fits is
stored exactly, any other as the double that the engine reads from it. -/
def Affinity.apply : Affinity → Cell → Cell
  | .integer, .text s =>
    let scan := NumericScan.ofChars s.toList
    let n : Int := if scan.negative then -(scan.whole : Int) else scan.whole
    match scan.coverage with
    | .short => .text s
    | .whole =>
      if Cell.integerLow ≤ n ∧ n < Cell.integerHigh then .integer n
      else integerOfReal scan.value
    | .decimal => integerOfReal scan.value
  | .integer, .real x => integerOfReal x
  | .text, .integer n => .text (toString n)
  | .text, .real x => .text (realText x)
  | _, c => c

/-- The truth of a cell in a condition: none for null, otherwise whether its number is not zero;
texts and blobs count by the number that their leading part spells. -/
def Cell.truth : Cell → Option Bool
  | .null => none
  | .integer n => some (n != 0)
  | .real x => some (x != 0.0)
  | .text s => some ((NumericScan.ofChars s.toList).value != 0.0)
  | .blob b => some ((NumericScan.ofChars (b.map fun x => Char.ofNat x.toNat)).value != 0.0)

end BridgeLedger
