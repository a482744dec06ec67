import BridgeLedger.Word
import BridgeLedger.Numeral.Binary

namespace BridgeLedger

/-- The comparison operators. -/
inductive Comparison where
  | eq
  | ne
  | lt
  | le
  | gt
  | ge
  deriving DecidableEq

namespace Comparison

def symbol : Comparison → String
  | .eq => "=="
  | .ne => "!="
  | .lt => "<"
  | .le => "<="
  | .gt => ">"
  | .ge => ">="

/-- The operator with its operands swapped: `a < b` is `b > a`. -/
def converse : Comparison → Comparison
  | .eq => .eq
  | .ne => .ne
  | .lt => .gt
  | .le => .ge
  | .gt => .lt
  | .ge => .le

/-- Whether an operator holds of an order between two operands; none for unordered ones. -/
def holds : Comparison → Option Ordering → Bool
  | .ne, none => true
  | _, none => false
  | .eq, some o => o == .eq
  | .ne, some o => o != .eq
  | .lt, some o => o == .lt
  | .le, some o => o != .gt
  | .gt, some o => o == .gt
  | .ge, some o => o != .lt

def isEquality : Comparison → Bool
  | .eq => true
  | .ne => true
  | _ => false

end Comparison

/-- An operand of a comparison: a word of some width, or a plain caller value. -/
inductive Operand where
  | word (w : Width) (x : Word w)
  | plain (v : Value)

def Operand.kindName : Operand → String
  | .word w _ => w.name
  | .plain v => v.kindName

/-- A refused comparison or hash. A word refuses an operand of another kind; two plain values
whose kinds have no order between them are refused with the operator; lists and maps have no
hash. -/
inductive Refusal where
  | unsupported (symbol left right : String)
  | unordered (symbol left right : String)
  | unhashable (kind : String)

def Refusal.message : Refusal → String
  | .unsupported s l r => "Unsupported operand type(s) for " ++ s ++ ": '" ++ l ++ "' and '" ++ r ++ "'"
  | .unordered s l r => "'" ++ s ++ "' not supported between instances of '" ++ l ++ "' and '" ++ r ++ "'"
  | .unhashable kind => "unhashable type: '" ++ kind ++ "'"

/-- The exact order of a double and an integer; none when the double is a NaN. -/
def orderFloatInt (x : Float) (n : Int) : Option Ordering :=
  match Numeral.Parts.ofFloat x with
  | .zero _ => some (compare 0 n)
  | .nan _ => none
  | .infinite negative => some (if negative then .lt else .gt)
  | .finite negative b =>
    let num : Int := b.numerator
    some (compare (if negative then -num else num) (n * b.denominator))

def truthInt (b : Bool) : Int := if b then 1 else 0

/-- The numeric order of two numbers (integers, truth values, doubles): some order, or some none
when a NaN takes part; none when either is not a number. -/
def numberOrder? : Value → Value → Option (Option Ordering)
  | .int m, .int n => some (some (compare m n))
  | .int m, .bool b => some (some (compare m (truthInt b)))
  | .bool a, .int n => some (some (compare (truthInt a) n))
  | .bool a, .bool b => some (some (compare (truthInt a) (truthInt b)))
  | .float x, .int n => some (orderFloatInt x n)
  | .int m, .float y => some ((orderFloatInt y m).map Ordering.swap)
  | .float x, .bool b => some (orderFloatInt x (truthInt b))
  | .bool a, .float y => some ((orderFloatInt y (truthInt a)).map Ordering.swap)
  | .float x, .float y =>
    some (if x < y then some .lt else if x == y then some .eq else if y < x then some .gt else none)
  | _, _ => none

def Value.isNaN : Value → Bool
  | .float x => x.isNaN
  | _ => false

mutual
/-- Equality of two plain values: numbers by value, texts and byte strings by content, the
absent value with itself, lists item by item and maps entry by entry. Inside a list or a map an
item is compared by `Value.same`. -/
def Value.equals : Value → Value → Bool
  | .list xs, b => match b with
    | .list ys => xs.length == ys.length && Value.itemsSame xs ys
    | _ => false
  | .dict es, b => match b with
    | .dict fs => es.length == fs.length && Value.entriesWithin es fs
    | _ => false
  | a, b => match numberOrder? a b with
    | some o => o == some .eq
    | Option.none => match a.codePoints?, b.codePoints?, a, b with
      | some p, some q, _, _ => p == q
      | _, _, .bytes x, .bytes y => x == y
      | _, _, .none, .none => true
      | _, _, _, _ => false

/-- Items equal as members of a list: a NaN is the same as a NaN, since every NaN that a caller
supplies is one and the same value, and other items are equal by `Value.equals`. -/
def Value.same (a b : Value) : Bool := (a.isNaN && b.isNaN) || a.equals b

def Value.itemsSame : List Value → List Value → Bool
  | x :: xs, y :: ys => Value.same x y && Value.itemsSame xs ys
  | _, _ => true

def Value.entriesWithin : List (Value × Value) → List (Value × Value) → Bool
  | (k, v) :: es, fs => (match Value.find? fs k with
      | some w => Value.same v w
      | Option.none => false) && Value.entriesWithin es fs
  | [], _ => true
end

/-- Whether an ordering operator holds between two plain values: numbers by value, texts and
byte strings lexicographically, lists at their first item that differs, or by length when one
is a prefix of the other. Values of other kinds have no order. -/
def Value.orders (c : Comparison) : Value → Value → Except Refusal Bool
  | .list xs, .list ys => listOrders xs ys
  | a, b => match numberOrder? a b, a, b with
    | some o, _, _ => .ok (c.holds o)
    | Option.none, .str s, .str t => .ok (c.holds (some (compare s t)))
    | Option.none, .bytes x, .bytes y => .ok (c.holds (some (Value.compareBytes x y)))
    | Option.none, _, _ => match a.codePoints?, b.codePoints? with
      | some p, some q => .ok (c.holds (some (Value.compareCodes p q)))
      | _, _ => .error (.unordered c.symbol a.kindName b.kindName)
where
  /-- Two lists by their first differing item. -/
  listOrders : List Value → List Value → Except Refusal Bool
    | x :: xs, y :: ys => if Value.same x y then listOrders xs ys else Value.orders c x y
    | xs, ys => .ok (c.holds (some (compare xs.length ys.length)))

def Value.compareBy (c : Comparison) (a b : Value) : Except Refusal Bool :=
  match c with
  | .eq => .ok (a.equals b)
  | .ne => .ok (!a.equals b)
  | _ => a.orders c b

/-- Whether a double and a word's value are compared through a whole number made of the double,
which the word then refuses: the double is a positive whole number with as many bits as the value,
and the value has more than 48 bits, too many to be made a double exactly. -/
def wholeOfSameLength (f : Float) (n : Nat) : Bool :=
  match Numeral.Parts.ofFloat f with
  | .finite false b =>
    b.numerator % b.denominator == 0 && 48 ≤ n.log2 && (b.numerator / b.denominator).log2 == n.log2
  | _ => false

/-- A double compared with a word, `c` as seen from the double's side. -/
def Word.compareFloat (c : Comparison) {w : Width} (f : Float) (y : Word w) : Except Refusal Bool :=
  if wholeOfSameLength f y.toNat then .error (.unsupported c.converse.symbol w.name "int")
  else .ok (c.holds (orderFloatInt f y.toNat))

/-- A word compared with an operand on its right, by the word's rules. -/
def Word.compareWith (c : Comparison) {w : Width} (x : Word w) : Operand → Except Refusal Bool
  | .word w' y =>
    if w = w' then .ok (c.holds (some (compare x.toNat y.toNat)))
    else .error (.unsupported c.symbol w.name w'.name)
  | .plain v =>
    match v with
    | .int _ => .error (.unsupported c.symbol w.name v.kindName)
    | .bool _ => .error (.unsupported c.symbol w.name v.kindName)
    | .float f =>
      if c.isEquality then Word.compareFloat c.converse f x
      else .error (.unsupported c.symbol w.name v.kindName)
    | _ =>
      if c.isEquality then .ok (c == .ne) else .error (.unsupported c.symbol w.name v.kindName)

/-- Two operands compared. A plain value on the left of a word lets the word decide with the
converse operator, but a truth value or a double on the left decides numerically itself. -/
def Operand.compare (c : Comparison) : Operand → Operand → Except Refusal Bool
  | .word _ x, other => x.compareWith c other
  | .plain (.bool b), .word _ y => .ok (c.holds (some (Ord.compare (truthInt b) y.toNat)))
  | .plain (.float f), .word _ y => Word.compareFloat c f y
  | .plain v, .word _ y => y.compareWith c.converse (.plain v)
  | .plain a, .plain b => a.compareBy c b

def hashModulus : Nat := 2 ^ (61 : Nat) - 1

/-- The hash of a number: its value modulo `hashModulus` with its sign, `-2` in place of `-1`; a
double `m * 2 ^ e` counts as `m * 2 ^ (e mod 61)`, as `2 ^ 61` is one modulo it. An infinity
hashes to `± 314159`, and a NaN has no number hash. -/
def numberHash? : Value → Option Int
  | .int n => some (signed (decide (n < 0)) (n.natAbs % hashModulus))
  | .bool b => some (truthInt b)
  | .float x => match Numeral.Parts.ofFloat x with
    | .zero _ => some 0
    | .infinite negative => some (if negative then -314159 else 314159)
    | .nan _ => none
    | .finite negative b =>
      some (signed negative (b.significand * 2 ^ (b.exponent % 61).toNat % hashModulus))
  | _ => none
where
  /-- A residue with a sign, `-1` moved to `-2`. -/
  signed (negative : Bool) (r : Nat) : Int :=
    let h : Int := if negative then -(r : Int) else r
    if h = -1 then -2 else h

/-- The code units of a text at the narrowest width that holds all its characters (one, two or
four bytes, least significant first): the buffer that the hash of a text is computed over. -/
def unitBytes (codes : List Nat) : List UInt8 :=
  let width := if codes.all (· < 256) then 1 else if codes.all (· < 65536) then 2 else 4
  codes.flatMap fun c => (List.range width).map fun i => (c / 256 ^ i % 256).toUInt8

/-- What decides whether two operands hash alike. -/
inductive HashKey where
  /-- A number, by its number hash; empty texts and byte strings hash as zero. -/
  | number (h : Int)
  /-- A non-empty text or byte string, by the bytes its hash is computed over. -/
  | buffer (bytes : List UInt8)
  /-- The NaN: every NaN a caller supplies is one value, with a hash of its own. -/
  | nan
  /-- The absent value. -/
  | none
  /-- A word, by its width and its value modulo the hash modulus. -/
  | word (w : Width) (residue : Nat)
  deriving DecidableEq

/-- The hash key of an operand, or the refusal of a list or a map. -/
def Operand.hashKey : Operand → Except Refusal HashKey
  | .word w x => .ok (.word w (x.toNat % hashModulus))
  | .plain v => match numberHash? v, v with
    | some h, _ => .ok (.number h)
    | none, .float _ => .ok .nan
    | none, .str s => .ok (if s.isEmpty then .number 0 else .buffer (unitBytes (s.toList.map Char.toNat)))
    | none, .points codes => .ok (if codes.isEmpty then .number 0 else .buffer (unitBytes codes))
    | none, .bytes b => .ok (if b.isEmpty then .number 0 else .buffer b)
    | none, .none => .ok .none
    | none, v => .error (.unhashable v.kindName)

/-- Whether two operands hash alike; a list or a map, the left one first, is refused. -/
def Operand.hashAlike (a b : Operand) : Except Refusal Bool := do
  let k ← a.hashKey
  let l ← b.hashKey
  return decide (k = l)

end BridgeLedger
