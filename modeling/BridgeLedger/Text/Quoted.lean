import BridgeLedger.Text.Hex
import BridgeLedger.Text.Printable

namespace BridgeLedger.Text

/-- The quote that encloses a content: a double quote exactly when the content holds an
apostrophe and no double quote. -/
def enclosingQuote (hasApostrophe hasDoubleQuote : Bool) : Char :=
  if hasApostrophe && !hasDoubleQuote then '"' else '\''

def shortEscape? (quote c : Char) : Option (List Char) :=
  if c == quote || c == '\\' then some ['\\', c]
  else if c == '\t' then some ['\\', 't']
  else if c == '\n' then some ['\\', 'n']
  else if c == '\r' then some ['\\', 'r']
  else none

/-- How one character of a text is written between `quote`s: ASCII controls and delete by two
hexadecimal digits, other unprintable characters by two, four or eight, whichever fits. -/
def escapeChar (quote c : Char) : List Char :=
  match shortEscape? quote c with
  | some e => e
  | none =>
    let n := c.toNat
    if n < 0x20 || n == 0x7F then '\\' :: 'x' :: hexPadded 2 n
    else if n < 0x7F || isPrintable c then [c]
    else if n ≤ 0xFF then '\\' :: 'x' :: hexPadded 2 n
    else if n ≤ 0xFFFF then '\\' :: 'u' :: hexPadded 4 n
    else '\\' :: 'U' :: hexPadded 8 n

/-- How one byte of a byte string is written between `quote`s: bytes outside printable ASCII
by two hexadecimal digits. -/
def escapeByte (quote : Char) (b : UInt8) : List Char :=
  let c := Char.ofNat b.toNat
  match shortEscape? quote c with
  | some e => e
  | none => if b.toNat < 0x20 || 0x7F ≤ b.toNat then '\\' :: 'x' :: hexPadded 2 b.toNat else [c]

def quoteText (s : String) : String :=
  let cs := s.toList
  let quote := enclosingQuote (cs.contains '\'') (cs.contains '"')
  String.ofList (quote :: cs.flatMap (escapeChar quote) ++ [quote])

def isSurrogate (n : Nat) : Bool := 0xD800 ≤ n && n < 0xE000

/-- How one code point of a text is written between `quote`s; a lone surrogate half never prints,
and is written by its four hexadecimal digits. -/
def escapePoint (quote : Char) (n : Nat) : List Char :=
  if isSurrogate n then '\\' :: 'u' :: hexPadded 4 n else escapeChar quote (Char.ofNat n)

def quotePoints (codes : List Nat) : String :=
  let quote := enclosingQuote (codes.contains 39) (codes.contains 34)
  String.ofList (quote :: codes.flatMap (escapePoint quote) ++ [quote])

/-- The quoted form of a byte string, marked by a leading `b`. -/
def quoteBytes (b : List UInt8) : String :=
  let quote := enclosingQuote (b.contains 39) (b.contains 34)
  String.ofList ('b' :: quote :: b.flatMap (escapeByte quote) ++ [quote])

example : quoteText "it's" = "\"it's\"" ∧ quoteText "a\n" = "'a\\n'" ∧
    quoteBytes [1, 65] = "b'\\x01A'" := by decide +kernel

end BridgeLedger.Text
