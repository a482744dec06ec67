import BridgeLedger.Text.Blank
import BridgeLedger.Numeral.Power
import BridgeLedger.Text.Digit

namespace BridgeLedger.Numeral

open BridgeLedger.Text

/-- The ASCII form of a text for the number grammars. The first character that is neither a blank
nor a digit nor ASCII becomes `?`, and the form ends there. -/
def asciiForm : List Char → List Char
  | [] => []
  | c :: rest =>
    if c.toNat < 127 then c :: asciiForm rest
    else if isBlank c then ' ' :: asciiForm rest
    else match asciiDigit? c with
      | some d => d :: asciiForm rest
      | none => ['?']

def separatorsBetweenDigits : List Char → Bool
  | [] => true
  | '_' :: _ => false
  | [_] => true
  | c :: '_' :: rest@(d :: _) => c.isDigit && d.isDigit && separatorsBetweenDigits rest
  | [_, '_'] => false
  | _ :: rest@(_ :: _) => separatorsBetweenDigits rest

def integerDigitLimit : Nat := 4300

/-- Why a text is no integer: it breaks the grammar, or it holds more digits than the limit
(the count of digits it holds is kept). -/
inductive IntegerTextError where
  | invalid
  | tooManyDigits (count : Nat)

/-- Reads an integer in base ten: blanks, a sign, digits with single underscores between
them, blanks. The digit limit is checked on the run of digits before what follows it. -/
def readInteger (s : String) : Except IntegerTextError Int := do
  let cs := asciiForm s.toList
  let cs := cs.dropWhile isAsciiBlank
  let (negative, cs) := match cs with
    | '+' :: rest => (false, rest)
    | '-' :: rest => (true, rest)
    | rest => (false, rest)
  let run := cs.takeWhile (fun c => c.isDigit || c == '_')
  let rest := cs.dropWhile (fun c => c.isDigit || c == '_')
  unless separatorsBetweenDigits run do throw .invalid
  let digits := run.filter Char.isDigit
  if integerDigitLimit < digits.length then throw (.tooManyDigits digits.length)
  if digits.isEmpty then throw .invalid
  unless (rest.dropWhile isAsciiBlank).isEmpty do throw .invalid
  let n : Int := digitsValue digits
  pure (if negative then -n else n)

def digitCount (n : Nat) : Nat := (toString n).length

/-- The double nearest to `c * 10 ^ k`. Values beyond `10 ^ 310` are infinite and values below
`10 ^ -330` are zero, so no huge power of ten is formed. -/
def nearestDouble (c : Nat) (k : Int) : Float :=
  let scale := k + digitCount c
  if c = 0 then 0.0
  else if 310 < scale then Float.ofBits 0x7FF0000000000000
  else if scale < -330 then 0.0
  else if 0 ≤ k then Float.ofScientific c false k.toNat
  else Float.ofScientific c true (-k).toNat

/-- Reads a decimal literal as `c * 10 ^ e`: digits with an optional point, at least one digit
in all, and an optional exponent `e` or `E` with a sign and at least one digit. -/
def readLiteral? (cs : List Char) : Option (Nat × Int) :=
  let whole := cs.takeWhile Char.isDigit
  let afterWhole := cs.dropWhile Char.isDigit
  let (fraction, afterFraction) := match afterWhole with
    | '.' :: rest => (rest.takeWhile Char.isDigit, rest.dropWhile Char.isDigit)
    | rest => ([], rest)
  if whole.isEmpty && fraction.isEmpty then none
  else
    let exponent? : Option Int := match afterFraction with
      | [] => some 0
      | e :: rest =>
        if e == 'e' || e == 'E' then
          let (negative, ds) := match rest with
            | '+' :: ds => (false, ds)
            | '-' :: ds => (true, ds)
            | ds => (false, ds)
          if !ds.isEmpty && ds.all Char.isDigit then
            let n : Int := digitsValue ds
            some (if negative then -n else n)
          else none
        else none
    exponent?.map fun exponent => (digitsValue (whole ++ fraction), exponent - fraction.length)

def readUnsignedDouble? (cs : List Char) : Option Float :=
  if spells cs "inf" || spells cs "infinity" then some (Float.ofBits 0x7FF0000000000000)
  else if spells cs "nan" then some (Float.ofBits 0x7FF8000000000000)
  else (readLiteral? cs).map fun (c, k) => nearestDouble c k

/-- Reads a double: blanks, a sign, `inf`, `infinity`, `nan` or a decimal literal, blanks, with
underscores only between two digits. The double is the nearest, ties to the even significand. -/
def readDouble? (s : String) : Option Float := do
  let cs := asciiForm s.toList
  if cs.contains (Char.ofNat 0) then none
  if cs.contains '_' && !separatorsBetweenDigits cs then none
  let cs := cs.filter (· != '_')
  let cs := ((cs.dropWhile isAsciiBlank).reverse.dropWhile isAsciiBlank).reverse
  let (negative, body) := match cs with
    | '+' :: rest => (false, rest)
    | '-' :: rest => (true, rest)
    | rest => (false, rest)
  let x ← readUnsignedDouble? body
  pure (if negative then -x else x)

theorem takeWhile_of_forall {p : Char → Bool} : ∀ {ds : List Char}, (∀ c ∈ ds, p c = true) →
    ds.takeWhile p = ds
  | [], _ => rfl
  | c :: rest, all => by
    rw [List.takeWhile_cons_of_pos (all c (by simp))]
    rw [takeWhile_of_forall (fun x mem => all x (by simp [mem]))]

theorem dropWhile_of_forall {p : Char → Bool} : ∀ {ds : List Char}, (∀ c ∈ ds, p c = true) →
    ds.dropWhile p = []
  | [], _ => rfl
  | c :: rest, all => by
    rw [List.dropWhile_cons_of_pos (all c (by simp))]
    exact dropWhile_of_forall (fun x mem => all x (by simp [mem]))

theorem readLiteral?_digits {ds : List Char} (nonempty : ds ≠ [])
    (digits : ∀ c ∈ ds, c.isDigit = true) : readLiteral? ds = some (digitsValue ds, 0) := by
  unfold readLiteral?
  simp only [takeWhile_of_forall digits, dropWhile_of_forall digits]
  cases ds with
  | nil => exact absurd rfl nonempty
  | cons c rest => simp

end BridgeLedger.Numeral
