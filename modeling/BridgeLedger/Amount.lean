import BridgeLedger.Conversion
import BridgeLedger.Decimal.Value
import BridgeLedger.Word

namespace BridgeLedger.Amount

def maximum : Nat := 2 ^ (256 : Nat) - 1

def toDecimal (a : Word .w256) : Decimal := Decimal.ofInt a.toNat

/-- The stored text of an amount: its decimal digits, which are the scientific string of its
decimal number. -/
def encode (a : Word .w256) : String := toString a.toNat

/-- The amount of a decimal number: it must be finite, not below zero, at most `maximum` and
whole, checked in that order, so that the first failing check is the one reported. -/
def decode (d : Decimal) : Except ConversionError (Word .w256) :=
  let fail := fun detail => Except.error ⟨.decimal d, "Uint256", detail⟩
  match d with
  | .finite negative c e =>
    if negative && c != 0 then fail .negative
    else if Decimal.exceeds c e maximum then fail .exceedsMaximum
    else if !Decimal.isWhole c e then fail .notIntegral
    else
      let n := Decimal.wholePart c e
      if h : n < 2 ^ Width.w256.bits then .ok ⟨n, h⟩ else fail .exceedsMaximum
  | _ => fail .notFinite

/-- Why a supplied value does not read as an amount. -/
inductive ReadError where
  | conversion (e : ConversionError)
  /-- An integer part of the value does not fit the machine integer it passes through. -/
  | tooLarge (holder : Decimal.Holder)

/-- The amount of a supplied value: its decimal number, then `decode`. -/
def decodeValue (raw : Value) : Except ReadError (Word .w256) :=
  match Decimal.read raw with
  | .ok d => (decode d).mapError .conversion
  | .error .notDecimal => .error (.conversion ⟨.value raw, "Uint256", .notDecimal⟩)
  | .error (.tooLarge holder) => .error (.tooLarge holder)

theorem mapError_eq_ok {ε ε' α : Type} {x : Except ε α} {f : ε → ε'} {a : α} :
    x.mapError f = .ok a ↔ x = .ok a := by
  cases x with
  | error e =>
    refine ⟨fun h => ?_, fun h => by cases h⟩
    change Except.error (f e) = .ok a at h
    cases h
  | ok b =>
    constructor
    · intro h
      change Except.ok b = .ok a at h
      cases h
      rfl
    · intro h
      cases h
      rfl

theorem digitCount_maximum : Decimal.digitCount maximum = 78 := by
  have most : Decimal.digitCount maximum ≤ 78 :=
    (Decimal.digitCount_le_iff (by decide)).mpr (by decide)
  have least : ¬ Decimal.digitCount maximum ≤ 77 :=
    fun h => absurd ((Decimal.digitCount_le_iff (by decide)).mp h) (by decide)
  omega

theorem exceeds_whole {n : Nat} (small : n ≤ maximum) : Decimal.exceeds n 0 maximum = false := by
  have digits : Decimal.digitCount n ≤ 78 :=
    (Decimal.digitCount_le_iff (by decide)).mpr (Nat.lt_of_le_of_lt small (by decide))
  unfold Decimal.exceeds Decimal.adjustedExponent
  rw [digitCount_maximum]
  by_cases zero : n = 0
  · simp [zero]
  · simp only [zero, if_false]
    split
    · simp only [decide_eq_false_iff_not]
      omega
    · simp only [Int.le_refl, if_true, Int.toNat_zero, Nat.pow_zero, Nat.mul_one,
        decide_eq_false_iff_not, Nat.not_lt]
      exact small

theorem decode_whole {n : Nat} (bound : n < 2 ^ Width.w256.bits) :
    decode (.finite false n 0) = .ok ⟨n, bound⟩ := by
  have small : n ≤ maximum := by
    have within : n < 2 ^ (256 : Nat) := bound
    unfold maximum
    omega
  unfold decode
  simp only [Bool.false_and, Bool.false_eq_true, if_false, exceeds_whole small]
  have whole : Decimal.isWhole n 0 = true := rfl
  have part : Decimal.wholePart n 0 = n := by
    unfold Decimal.wholePart
    split <;> simp_all
  simp only [whole, Bool.not_true, Bool.false_eq_true, if_false]
  simp only [part, dif_pos bound]

theorem ofString?_encode (a : Word .w256) : Decimal.ofString? (encode a) = some (.finite false a.toNat 0) := by
  obtain ⟨n, bound⟩ := a
  have canonical := Text.canonicalDigits_toString n
  have short : Decimal.adjustedExponent (Text.digitsValue (toString n).toList) 0 ≤
      Decimal.maxExponent := by
    rw [canonical.2.2.2]
    have digits : Decimal.digitCount n ≤ 78 :=
      (Decimal.digitCount_le_iff (by decide)).mpr (Nat.lt_of_lt_of_le bound (by decide))
    unfold Decimal.adjustedExponent Decimal.maxExponent
    omega
  unfold encode
  rw [Decimal.ofString?_digits canonical.1 canonical.2.1 short, canonical.2.2.2]

/-- Reading the stored text of an amount gives the amount back. -/
theorem decodeValue_encode (a : Word .w256) : decodeValue (.str (encode a)) = .ok a := by
  unfold decodeValue
  simp only [Decimal.read, ofString?_encode, decode_whole a.isLt]
  rfl

/-- A decoded amount is the value of the decimal number it was decoded from. -/
theorem denotes_of_decode {d : Decimal} {a : Word .w256} (read : decode d = .ok a) :
    d.Denotes a.toNat := by
  cases d with
  | finite negative c e =>
    unfold decode at read
    simp only at read
    split at read
    · cases read
    split at read
    · cases read
    split at read
    · cases read
    split at read
    · rename_i sign _ whole _
      cases read
      refine ⟨fun minus => ?_, Decimal.wholePart_mul (by simpa using whole)⟩
      simp only [minus, Bool.true_and, bne_iff_ne, ne_eq] at sign
      exact Decidable.of_not_not sign
    · cases read
  | infinity => cases read
  | nan => cases read

end BridgeLedger.Amount
