import BridgeLedger.Text.Quoted
import BridgeLedger.Value

namespace BridgeLedger

namespace Text

/-- Where encoding a text failed: the positions from `start` up to `stop` of code points that have
no form, and the first of them. -/
structure EncodingGap where
  start : Nat
  stop : Nat
  first : Nat

def EncodingGap.message (g : EncodingGap) : String :=
  if g.stop = g.start + 1 then
    "'utf-8' codec can't encode character '\\u" ++ String.ofList (hexPadded 4 g.first) ++
      "' in position " ++ toString g.start ++ ": surrogates not allowed"
  else
    "'utf-8' codec can't encode characters in position " ++ toString g.start ++ "-" ++
      toString (g.stop - 1) ++ ": surrogates not allowed"

def escapesByte (n : Nat) : Bool := 0xDC80 ≤ n && n ≤ 0xDCFF

def gapAt (lacksForm : Nat → Bool) (codes : List Nat) : Option EncodingGap :=
  let start := (codes.takeWhile fun n => !lacksForm n).length
  let rest := codes.drop start
  match rest with
  | first :: _ => some ⟨start, start + (rest.takeWhile isSurrogate).length, first⟩
  | [] => none

/-- The gap of a strict encoding: the first run of surrogate halves. -/
def strictGap? (codes : List Nat) : Option EncodingGap := gapAt isSurrogate codes

/-- The gap of an encoding with escaped bytes: the first half that stands for no byte. -/
def escapedGap? (codes : List Nat) : Option EncodingGap :=
  gapAt (fun n => isSurrogate n && !escapesByte n) codes

/-- The UTF-8 bytes of one code point, or the byte an escaping half stands for. -/
def encodePoint (n : Nat) : List UInt8 :=
  if escapesByte n then [(n - 0xDC00).toUInt8]
  else if n < 0x80 then [n.toUInt8]
  else if n < 0x800 then [(0xC0 + n / 64).toUInt8, (0x80 + n % 64).toUInt8]
  else if n < 0x10000 then
    [(0xE0 + n / 4096).toUInt8, (0x80 + n / 64 % 64).toUInt8, (0x80 + n % 64).toUInt8]
  else
    [(0xF0 + n / 262144).toUInt8, (0x80 + n / 4096 % 64).toUInt8, (0x80 + n / 64 % 64).toUInt8,
      (0x80 + n % 64).toUInt8]

def encodeEscaped (codes : List Nat) : List UInt8 := codes.flatMap encodePoint

def trailWithin (low high : Nat) (b : UInt8) : Bool := low ≤ b.toNat && b.toNat ≤ high

/-- The code point of a well-formed UTF-8 sequence at the head of some bytes, and the rest. A
sequence is well formed when it is the shortest for its code point and names neither a surrogate
half nor a point beyond `U+10FFFF`. -/
def sequenceAt : List UInt8 → Option (Nat × List UInt8)
  | b0 :: rest =>
    let n := b0.toNat
    if n < 0x80 then some (n, rest)
    else if 0xC2 ≤ n && n ≤ 0xDF then
      match rest with
      | b1 :: more =>
        if trailWithin 0x80 0xBF b1 then some ((n % 32) * 64 + b1.toNat % 64, more) else none
      | [] => none
    else if 0xE0 ≤ n && n ≤ 0xEF then
      match rest with
      | b1 :: b2 :: more =>
        let low := if n = 0xE0 then 0xA0 else 0x80
        let high := if n = 0xED then 0x9F else 0xBF
        if trailWithin low high b1 && trailWithin 0x80 0xBF b2 then
          some (((n % 16) * 64 + b1.toNat % 64) * 64 + b2.toNat % 64, more)
        else none
      | _ => none
    else if 0xF0 ≤ n && n ≤ 0xF4 then
      match rest with
      | b1 :: b2 :: b3 :: more =>
        let low := if n = 0xF0 then 0x90 else 0x80
        let high := if n = 0xF4 then 0x8F else 0xBF
        if trailWithin low high b1 && trailWithin 0x80 0xBF b2 && trailWithin 0x80 0xBF b3 then
          some ((((n % 8) * 64 + b1.toNat % 64) * 64 + b2.toNat % 64) * 64 + b3.toNat % 64, more)
        else none
      | _ => none
    else none
  | [] => none

/-- Reads bytes back, at most `fuel` code points: well-formed sequences as their code points,
any other byte as the half that escapes it. -/
def decodeWithin : Nat → List UInt8 → List Nat
  | 0, _ => []
  | fuel + 1, bytes =>
    match sequenceAt bytes with
    | some (n, rest) => n :: decodeWithin fuel rest
    | none => match bytes with
      | b :: rest => (0xDC00 + b.toNat) :: decodeWithin fuel rest
      | [] => []

def decodeEscaped (bytes : List UInt8) : List Nat := decodeWithin bytes.length bytes

end Text

/-- The text value of some code points: a `str` unless it holds a surrogate half. -/
def Value.ofCodePoints (codes : List Nat) : Value :=
  if codes.any Text.isSurrogate then .points codes else .str (String.ofList (codes.map Char.ofNat))

end BridgeLedger
