import BridgeLedger.Record.Fields
import BridgeLedger.Numeral.Reading
import BridgeLedger.Text.Quoted
import BridgeLedger.Text.Escaped

namespace BridgeLedger

/-- The settings of a store. The pending limit is positive and the busy timeout, in seconds, is
not below zero. -/
structure Settings where
  /-- The database path by its code points: a caller's path may hold half a surrogate pair. -/
  databasePath : List Nat
  pendingLimit : Nat
  limit_pos : 0 < pendingLimit
  busyTimeout : Float

namespace Settings

def default : Settings := ⟨":memory:".toList.map Char.toNat, 30, by decide, 5.0⟩

def fieldNames : List String := ["database_path", "pending_finalization_limit", "busy_timeout_secs"]

/-- A positive integer limit; truth values and doubles are refused. -/
def limitOf? : Value → Option { n : Nat // 0 < n }
  | .int n => if h : 0 < n then some ⟨n.toNat, by omega⟩ else none
  | _ => none

/-- A timeout of at least zero seconds: a double, or an integer that a double can hold. -/
def timeoutOf? : Value → Option Float
  | .float x => if 0.0 ≤ x then some x else none
  | .int n =>
    let x := Float.ofInt n
    if 0.0 ≤ x && !x.isInf then some x else none
  | _ => none

/-- Builds settings from fields; absent fields keep their defaults and unknown ones are refused. -/
def ofFields (fields : List (Value × Value)) : Except Invalid Settings := do
  let fields ← Validated.named .storageSettings fields
  let path := Validated.optional fields "database_path" default.databasePath Value.codePoints?
  let limit := Validated.optional fields "pending_finalization_limit" ⟨30, by decide⟩ limitOf?
  let timeout := Validated.optional fields "busy_timeout_secs" default.busyTimeout timeoutOf?
  let extra := Validated.onlyKnown fields fieldNames
  Validated.toInvalid .storageSettings <|
    (((path.both limit).both timeout).both extra).map
      fun (((p, l), t), _) => ⟨p, l.1, l.2, t⟩

/-- Whether the busy timeout converts to whole milliseconds: its product with a thousand must be
finite. -/
def timeoutFits (s : Settings) : Bool := !(s.busyTimeout * 1000.0).isInf

end Settings

/-- Why settings could not be read from the environment. -/
inductive EnvironmentError where
  /-- The text of a variable holds a surrogate half that escapes no byte, so it has no form. -/
  | unencodable (gap : Text.EncodingGap)
  /-- The text of a variable holds a NUL character, so it cannot be set. -/
  | nullCharacter
  | limitText (text : List Nat) (reason : Numeral.IntegerTextError)
  | timeoutText (text : List Nat)
  | invalid (e : Invalid)

def EnvironmentError.message : EnvironmentError → String
  | .unencodable gap => gap.message
  | .nullCharacter => "embedded null byte"
  | .limitText text .invalid =>
    "invalid literal for int() with base 10: " ++ String.ofList ((Text.quotePoints text).toList.take 200)
  | .limitText _ (.tooManyDigits count) =>
    "Exceeds the limit (" ++ toString Numeral.integerDigitLimit ++
      " digits) for integer string conversion: value has " ++ toString count ++
      " digits; use sys.set_int_max_str_digits() to increase the limit"
  | .timeoutText text => "could not convert string to float: " ++ Text.quotePoints text
  | .invalid e => e.message

namespace Settings

def pathVariable : String := "FINALIZER_DB_PATH"

def limitVariable : String := "FINALIZER_PENDING_LIMIT"

def timeoutVariable : String := "FINALIZER_BUSY_TIMEOUT_SECS"

/-- The bytes that a variable's text is set as, in UTF-8 with escaped bytes, or why it cannot be
set: a surrogate half that escapes no byte, or a NUL byte. -/
def storedBytes (codes : List Nat) : Except EnvironmentError (List UInt8) :=
  match Text.escapedGap? codes with
  | some gap => .error (.unencodable gap)
  | none =>
    let bytes := Text.encodeEscaped codes
    if bytes.contains 0 then .error .nullCharacter else .ok bytes

/-- The text that a number is read from: a surrogate half is no digit, sign or blank, and reads
as a question mark. -/
def numberText (codes : List Nat) : String :=
  String.ofList (codes.map fun n => if Text.isSurrogate n then '?' else Char.ofNat n)

/-- Builds settings from environment variables given by their code points; unset ones keep their
defaults and others are ignored. The three are all set first, so the first that cannot be set is
the error before any is read, and each is then read back from its bytes, the limit first. -/
def ofEnvironment (env : List (List Nat × List Nat)) : Except EnvironmentError Settings := do
  let known := [pathVariable, limitVariable, timeoutVariable].map (·.toList.map Char.toNat)
  let stored ← (env.filter (known.contains ·.1)).mapM fun (name, codes) => do
    return (name, Text.decodeEscaped (← storedBytes codes))
  let find := fun (name : String) => (stored.find? (·.1 == name.toList.map Char.toNat)).map (·.2)
  let path : List (Value × Value) := match find pathVariable with
    | some codes => [(.str "database_path", Value.ofCodePoints codes)]
    | none => []
  let limit : List (Value × Value) ← match find limitVariable with
    | some codes => match Numeral.readInteger (numberText codes) with
      | .ok n => pure [(.str "pending_finalization_limit", .int n)]
      | .error e => throw (.limitText codes e)
    | none => pure []
  let timeout : List (Value × Value) ← match find timeoutVariable with
    | some codes => match Numeral.readDouble? (numberText codes) with
      | some x => pure [(.str "busy_timeout_secs", .float x)]
      | none => throw (.timeoutText codes)
    | none => pure []
  match ofFields (path ++ limit ++ timeout) with
  | .ok settings => pure settings
  | .error e => throw (.invalid e)

end Settings

end BridgeLedger
