
namespace BridgeLedger.Text

def hexDigit (n : Nat) : Char :=
  if n < 10 then Char.ofNat (48 + n) else Char.ofNat (87 + n)

/-- The value of a hexadecimal digit of either case. -/
def hexValue? (c : Char) : Option Nat :=
  if '0' ≤ c ∧ c ≤ '9' then some (c.toNat - 48)
  else if 'a' ≤ c ∧ c ≤ 'f' then some (c.toNat - 87)
  else if 'A' ≤ c ∧ c ≤ 'F' then some (c.toNat - 55)
  else none

/-- The lowest `width` hexadecimal digits of `n`, most significant first. -/
def hexPadded : Nat → Nat → List Char
  | 0, _ => []
  | width + 1, n => hexPadded width (n / 16) ++ [hexDigit (n % 16)]

/-- Bytes written as lowercase hexadecimal, two digits each. -/
def hexOfBytes (b : List UInt8) : String :=
  String.ofList (b.flatMap (fun x => hexPadded 2 x.toNat))

/-- Reads pairs of hexadecimal digits back into bytes; an odd digit count or another character
gives none. -/
def bytesOfHex? : List Char → Option (List UInt8)
  | [] => some []
  | [_] => none
  | hi :: lo :: rest => do
    let h ← hexValue? hi
    let l ← hexValue? lo
    let tail ← bytesOfHex? rest
    pure ((h * 16 + l).toUInt8 :: tail)

theorem hexPadded_length (width n : Nat) : (hexPadded width n).length = width := by
  induction width generalizing n with
  | zero => rfl
  | succ width ih => simp [hexPadded, ih]

theorem hexValue?_hexDigit {d : Nat} (small : d < 16) : hexValue? (hexDigit d) = some d := by
  have every : ∀ n, n < 16 → hexValue? (hexDigit n) = some n := by decide
  exact every d small

theorem hexPadded_two (n : Nat) : hexPadded 2 n = [hexDigit (n / 16 % 16), hexDigit (n % 16)] := by
  simp [hexPadded]

theorem bytesOfHex?_flatMap (b : List UInt8) :
    bytesOfHex? (b.flatMap fun x => hexPadded 2 x.toNat) = some b := by
  induction b with
  | nil => rfl
  | cons x rest ih =>
    have bound := x.toNat_lt
    simp only [hexPadded_two] at ih
    simp only [List.flatMap_cons, hexPadded_two, List.cons_append, List.nil_append, bytesOfHex?,
      hexValue?_hexDigit (Nat.mod_lt _ (by decide : 16 > 0)), ih, Option.bind_eq_bind,
      Option.bind_some, Option.pure_def, Option.some.injEq, List.cons.injEq, and_true]
    apply UInt8.toNat_inj.mp
    simp only [Nat.toUInt8_eq, UInt8.toNat_ofNat', Nat.reducePow]
    omega

/-- Reading the hex text of bytes gives the bytes back. -/
theorem bytesOfHex?_hexOfBytes (b : List UInt8) : bytesOfHex? (hexOfBytes b).toList = some b := by
  simp only [hexOfBytes, String.toList_ofList, bytesOfHex?_flatMap]

example : hexOfBytes [0, 171, 255] = "00abff" ∧ bytesOfHex? "00AbfF".toList = some [0, 171, 255] := by
  decide

end BridgeLedger.Text
