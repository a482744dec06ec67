import Mathlib
import BridgeLedger.Amount

namespace BridgeLedger

namespace Decimal

/-- The value of a finite number, `± c * 10 ^ e`; an infinity or a NaN has none. -/
def value? : Decimal → Option ℚ
  | .finite negative c e => some ((if negative then -(c : ℚ) else c) * 10 ^ e)
  | _ => none

theorem digitCount_pos (c : Nat) : 0 < digitCount c := by
  unfold digitCount
  rw [← String.length_toList, Nat.toString_eq_repr, Nat.toList_repr]
  exact List.length_pos_of_ne_nil Nat.toDigits_ne_nil

theorem lt_pow_digitCount (c : Nat) : c < 10 ^ digitCount c :=
  (digitCount_le_iff (digitCount_pos c)).mp (Nat.le_refl _)

theorem pow_digitCount_le {c : Nat} (nonzero : c ≠ 0) : 10 ^ (digitCount c - 1) ≤ c := by
  have positive := digitCount_pos c
  by_cases one : digitCount c = 1
  · rw [one]
    omega
  · refine Nat.le_of_not_lt fun below => ?_
    have short := (digitCount_le_iff (by omega)).mpr below
    omega

/-- A nonzero `c * 10 ^ e`, scaled by the power of ten of the exponent's negative part, lies
between the power of ten of its leading digit and the next one. -/
theorem scaled_bounds {c : Nat} (nonzero : c ≠ 0) (e : Int) :
    10 ^ (digitCount c - 1 + e.toNat) ≤ c * 10 ^ e.toNat ∧
      c * 10 ^ e.toNat < 10 ^ (digitCount c + e.toNat) := by
  rw [Nat.pow_add, Nat.pow_add]
  exact ⟨Nat.mul_le_mul_right _ (pow_digitCount_le nonzero),
    Nat.mul_lt_mul_of_pos_right (lt_pow_digitCount c) (Nat.pow_pos (by decide))⟩

/-- The range check decides the exact comparison: a finite, non-negative `c * 10 ^ e` exceeds a
positive bound exactly when it does once both sides are brought to one scale. Adjusted exponents
that differ settle it by the leading digits alone, so no huge power is formed. -/
theorem exceeds_iff {c bound : Nat} {e : Int} (positive : 0 < bound) :
    exceeds c e bound = true ↔ bound * 10 ^ (-e).toNat < c * 10 ^ e.toNat := by
  unfold exceeds adjustedExponent
  by_cases zero : c = 0
  · simp [zero]
  obtain ⟨low, high⟩ := scaled_bounds zero e
  obtain ⟨least, most⟩ := scaled_bounds (Nat.pos_iff_ne_zero.mp positive) (-e)
  have digits := digitCount_pos c
  have boundDigits := digitCount_pos bound
  simp only [zero, if_false]
  split
  · rw [decide_eq_true_iff]
    constructor
    · intro above
      calc bound * 10 ^ (-e).toNat < 10 ^ (digitCount bound + (-e).toNat) := most
        _ ≤ 10 ^ (digitCount c - 1 + e.toNat) := Nat.pow_le_pow_right (by decide) (by omega)
        _ ≤ c * 10 ^ e.toNat := low
    · intro exceeding
      refine Int.lt_of_not_ge fun below => ?_
      -- with the leading digit of `c * 10 ^ e` lower than the bound's, it is below the bound
      have under : c * 10 ^ e.toNat < bound * 10 ^ (-e).toNat :=
        calc c * 10 ^ e.toNat < 10 ^ (digitCount c + e.toNat) := high
          _ ≤ 10 ^ (digitCount bound - 1 + (-e).toNat) := Nat.pow_le_pow_right (by decide) (by omega)
          _ ≤ bound * 10 ^ (-e).toNat := least
      omega
  · split
    · rw [Int.toNat_eq_zero.mpr (by omega : -e ≤ 0), Nat.pow_zero, Nat.mul_one, decide_eq_true_iff]
    · rw [Int.toNat_eq_zero.mpr (by omega : e ≤ 0), Nat.pow_zero, Nat.mul_one, decide_eq_true_iff]

/-- The whole-number check decides divisibility: `c * 10 ^ e` is whole exactly when the power of
ten of the exponent's negative part divides `c` scaled by its positive part. -/
theorem isWhole_iff {c : Nat} {e : Int} : isWhole c e = true ↔ 10 ^ (-e).toNat ∣ c * 10 ^ e.toNat := by
  unfold isWhole
  split
  · rw [Int.toNat_eq_zero.mpr (by omega : -e ≤ 0), Nat.pow_zero]
    exact ⟨fun _ => Nat.one_dvd _, fun _ => rfl⟩
  · rw [Int.toNat_eq_zero.mpr (by omega : e ≤ 0), Nat.pow_zero, Nat.mul_one]
    split
    · rename_i few
      rw [beq_iff_eq]
      constructor
      · intro zero
        rw [zero]
        exact Nat.dvd_zero _
      · intro divides
        -- fewer digits than the power of ten has zeros: `c` is below it, so only zero divides
        have small : c < 10 ^ (-e).toNat :=
          Nat.lt_of_lt_of_le (lt_pow_digitCount c) (Nat.pow_le_pow_right (by decide) few.le)
        exact Nat.eq_zero_of_dvd_of_lt divides small
    · rw [beq_iff_eq]
      exact Nat.dvd_iff_mod_eq_zero.symm

theorem zpow_ten (e : Int) : (10 : ℚ) ^ e = 10 ^ e.toNat / 10 ^ (-e).toNat := by
  rcases le_or_gt 0 e with up | down
  · have same : e = (e.toNat : Int) := (Int.toNat_of_nonneg up).symm
    rw [Int.toNat_eq_zero.mpr (by omega : -e ≤ 0), pow_zero, div_one]
    conv_lhs => rw [same]
    rw [zpow_natCast]
  · have same : e = -((-e).toNat : Int) := by omega
    rw [Int.toNat_eq_zero.mpr down.le, pow_zero, one_div]
    conv_lhs => rw [same]
    rw [zpow_neg, zpow_natCast]

/-- `c * 10 ^ e` as a quotient of naturals. -/
theorem magnitude_eq (c : Nat) (e : Int) :
    (c : ℚ) * 10 ^ e = ((c * 10 ^ e.toNat : Nat) : ℚ) / ((10 ^ (-e).toNat : Nat) : ℚ) := by
  rw [zpow_ten, ← mul_div_assoc]
  push_cast
  rfl

theorem scale_pos (e : Int) : (0 : ℚ) < ((10 ^ (-e).toNat : Nat) : ℚ) := by
  exact_mod_cast Nat.pow_pos (by decide)

theorem lt_magnitude_iff {n c : Nat} {e : Int} :
    (n : ℚ) < c * 10 ^ e ↔ n * 10 ^ (-e).toNat < c * 10 ^ e.toNat := by
  rw [magnitude_eq, lt_div_iff₀ (scale_pos e)]
  exact_mod_cast Iff.rfl

theorem magnitude_eq_iff {n c : Nat} {e : Int} :
    (c : ℚ) * 10 ^ e = n ↔ c * 10 ^ e.toNat = n * 10 ^ (-e).toNat := by
  rw [magnitude_eq, div_eq_iff (scale_pos e).ne']
  exact_mod_cast Iff.rfl

theorem magnitude_nonneg (c : Nat) (e : Int) : (0 : ℚ) ≤ c * 10 ^ e := by
  positivity

theorem exists_int_magnitude_iff {c : Nat} {e : Int} :
    (∃ n : Int, (c : ℚ) * 10 ^ e = n) ↔ 10 ^ (-e).toNat ∣ c * 10 ^ e.toNat := by
  constructor
  · rintro ⟨n, atN⟩
    have nonneg : (0 : ℚ) ≤ n := atN ▸ magnitude_nonneg c e
    have natural : n = (n.toNat : Int) := (Int.toNat_of_nonneg (by exact_mod_cast nonneg)).symm
    rw [natural, Int.cast_natCast, magnitude_eq_iff] at atN
    exact ⟨n.toNat, by rw [atN, Nat.mul_comm]⟩
  · rintro ⟨k, scaled⟩
    refine ⟨k, ?_⟩
    rw [Int.cast_natCast, magnitude_eq_iff, scaled, Nat.mul_comm]

/-- A number whose sign is not below zero is worth its magnitude; a negative zero is zero. -/
theorem value?_of_not_below {negative : Bool} {c : Nat} {e : Int} (sign : (negative && c != 0) = false) :
    value? (.finite negative c e) = some ((c : ℚ) * 10 ^ e) := by
  cases negative with
  | false => simp [value?]
  | true =>
    have zero : c = 0 := by simpa using sign
    simp [value?, zero]

theorem value?_of_below {negative : Bool} {c : Nat} {e : Int} (below : (negative && c != 0) = true) :
    ∃ q, value? (.finite negative c e) = some q ∧ q < 0 := by
  have sign : negative = true ∧ c ≠ 0 := by simpa using below
  refine ⟨_, rfl, ?_⟩
  rw [if_pos sign.1, neg_mul, neg_neg_iff_pos]
  have positive : (0 : ℚ) < c := by exact_mod_cast Nat.pos_of_ne_zero sign.2
  positivity

/-- A number is worth the whole number `n` exactly when it denotes it. -/
theorem value?_eq_natCast_iff {d : Decimal} {n : Nat} : d.value? = some (n : ℚ) ↔ d.Denotes n := by
  cases d with
  | finite negative c e =>
    by_cases below : (negative && c != 0) = true
    · obtain ⟨q, valued, negativeValue⟩ := value?_of_below below
      have sign : negative = true ∧ c ≠ 0 := by simpa using below
      rw [valued, Option.some.injEq]
      refine ⟨fun same => absurd (same ▸ negativeValue) (not_lt.mpr (Nat.cast_nonneg n)), fun denotes => ?_⟩
      exact absurd (denotes.1 sign.1) sign.2
    · have sign : (negative && c != 0) = false := by simpa using below
      rw [value?_of_not_below sign, Option.some.injEq, magnitude_eq_iff]
      refine ⟨fun scaled => ⟨fun minus => ?_, scaled⟩, fun denotes => denotes.2⟩
      simpa [minus] using sign
  | infinity => exact ⟨fun valued => (by cases valued), fun denotes => False.elim denotes⟩
  | nan => exact ⟨fun valued => (by cases valued), fun denotes => False.elim denotes⟩

end Decimal
end BridgeLedger

namespace BridgeLedger.Amount

open Decimal

theorem maximum_pos : 0 < maximum := by
  unfold maximum
  decide

theorem toNat_le_maximum (a : Word .w256) : a.toNat ≤ maximum :=
  Nat.le_sub_one_of_lt a.isLt

theorem value?_toDecimal (a : Word .w256) : (toDecimal a).value? = some (a.toNat : ℚ) := by
  simp [toDecimal, Decimal.ofInt, value?]

/-- The scientific string of an amount's decimal number is its stored text. -/
theorem encode_eq_toSciString (a : Word .w256) : encode a = (toDecimal a).toSciString := by
  have sign : decide ((a.toNat : Int) < 0) = false := decide_eq_false (by omega)
  have count := digitCount_pos a.toNat
  unfold digitCount at count
  unfold encode toDecimal Decimal.ofInt toSciString
  rw [sign, Int.natAbs_natCast]
  dsimp only
  rw [if_neg Bool.false_ne_true, if_pos ⟨Int.le_refl 0, by rw [String.length_toList]; omega⟩, if_pos rfl,
    String.ofList_toList, String.empty_append]

section Finite

variable {negative : Bool} {c : Nat} {e : Int}

theorem decode_of_below (below : (negative && c != 0) = true) :
    decode (.finite negative c e) = .error ⟨.decimal (.finite negative c e), "Uint256", .negative⟩ := by
  unfold decode
  dsimp only
  rw [if_pos below]

theorem decode_of_exceeds (sign : (negative && c != 0) = false)
    (beyond : maximum * 10 ^ (-e).toNat < c * 10 ^ e.toNat) :
    decode (.finite negative c e) = .error ⟨.decimal (.finite negative c e), "Uint256", .exceedsMaximum⟩ := by
  unfold decode
  dsimp only
  rw [if_neg (ne_true_of_eq_false sign), if_pos ((exceeds_iff maximum_pos).mpr beyond)]

theorem decode_of_fraction (sign : (negative && c != 0) = false)
    (within : ¬maximum * 10 ^ (-e).toNat < c * 10 ^ e.toNat) (fraction : ¬10 ^ (-e).toNat ∣ c * 10 ^ e.toNat) :
    decode (.finite negative c e) = .error ⟨.decimal (.finite negative c e), "Uint256", .notIntegral⟩ := by
  have inRange : exceeds c e maximum = false := Bool.eq_false_iff.mpr (mt (exceeds_iff maximum_pos).mp within)
  have fractional : isWhole c e = false := Bool.eq_false_iff.mpr (mt isWhole_iff.mp fraction)
  unfold decode
  dsimp only
  rw [if_neg (ne_true_of_eq_false sign), if_neg (ne_true_of_eq_false inRange), fractional]
  rfl

theorem decode_of_whole (sign : (negative && c != 0) = false)
    (within : ¬maximum * 10 ^ (-e).toNat < c * 10 ^ e.toNat) (whole : 10 ^ (-e).toNat ∣ c * 10 ^ e.toNat) :
    ∃ a : Word .w256, decode (.finite negative c e) = .ok a ∧ c * 10 ^ e.toNat = a.toNat * 10 ^ (-e).toNat := by
  have inRange : exceeds c e maximum = false := Bool.eq_false_iff.mpr (mt (exceeds_iff maximum_pos).mp within)
  have isWhole : isWhole c e = true := isWhole_iff.mpr whole
  have scaled := wholePart_mul isWhole
  -- the whole part is at most the maximum, as its scaled value is
  have fits : wholePart c e < 2 ^ Width.w256.bits := by
    have atMost : wholePart c e * 10 ^ (-e).toNat ≤ maximum * 10 ^ (-e).toNat := by omega
    have bounded := Nat.le_of_mul_le_mul_right atMost (Nat.pow_pos (by decide))
    have top : maximum < 2 ^ Width.w256.bits := by decide
    omega
  refine ⟨⟨wholePart c e, fits⟩, ?_, scaled⟩
  unfold decode
  dsimp only
  rw [if_neg (ne_true_of_eq_false sign), if_neg (ne_true_of_eq_false inRange), isWhole]
  simp only [Bool.not_true, Bool.false_eq_true, if_false, dif_pos fits]

end Finite

/-- A number is read as an amount exactly when it is worth that amount's whole number. -/
theorem decode_eq_ok_iff {d : Decimal} {a : Word .w256} : decode d = .ok a ↔ d.value? = some (a.toNat : ℚ) := by
  rw [value?_eq_natCast_iff]
  refine ⟨denotes_of_decode, fun denotes => ?_⟩
  cases d with
  | finite negative c e =>
    obtain ⟨sign, scaled⟩ := denotes
    have notBelow : (negative && c != 0) = false := by
      cases negative with
      | false => rfl
      | true => simp [sign rfl]
    have within : ¬maximum * 10 ^ (-e).toNat < c * 10 ^ e.toNat := by
      rw [scaled]
      exact Nat.not_lt.mpr (Nat.mul_le_mul_right _ (toNat_le_maximum a))
    have whole : 10 ^ (-e).toNat ∣ c * 10 ^ e.toNat := ⟨a.toNat, by rw [scaled, Nat.mul_comm]⟩
    obtain ⟨a', decoded, scaled'⟩ := decode_of_whole notBelow within whole
    have same : a'.toNat = a.toNat := Nat.eq_of_mul_eq_mul_right (Nat.pow_pos (by decide)) (scaled'.symm.trans scaled)
    rw [decoded, Word.ext same]
  | infinity => exact False.elim denotes
  | nan => exact False.elim denotes

/-- The checks of a finite number, on its value `q`: below zero it is negative; otherwise above
the maximum it exceeds it, whatever its fraction; otherwise with a fraction it is not whole. -/
theorem decode_finite_checks {negative : Bool} {c : Nat} {e : Int} {q : ℚ}
    (valued : value? (.finite negative c e) = some q) :
    (q < 0 → decode (.finite negative c e) = .error ⟨.decimal (.finite negative c e), "Uint256", .negative⟩) ∧
    (0 ≤ q → (maximum : ℚ) < q →
      decode (.finite negative c e) = .error ⟨.decimal (.finite negative c e), "Uint256", .exceedsMaximum⟩) ∧
    (0 ≤ q → q ≤ maximum → (¬∃ n : Int, q = n) →
      decode (.finite negative c e) = .error ⟨.decimal (.finite negative c e), "Uint256", .notIntegral⟩) := by
  by_cases below : (negative && c != 0) = true
  · obtain ⟨q', valued', negativeValue⟩ := value?_of_below below
    have same : q = q' := Option.some.inj (valued.symm.trans valued')
    subst same
    exact ⟨fun _ => decode_of_below below, fun nonneg => absurd negativeValue (not_lt.mpr nonneg),
      fun nonneg => absurd negativeValue (not_lt.mpr nonneg)⟩
  · have sign : (negative && c != 0) = false := Bool.eq_false_iff.mpr below
    have same : (c : ℚ) * 10 ^ e = q := Option.some.inj ((value?_of_not_below sign).symm.trans valued)
    subst same
    refine ⟨fun negativeValue => absurd negativeValue (not_lt.mpr (magnitude_nonneg c e)),
      fun _ beyond => decode_of_exceeds sign (lt_magnitude_iff.mp beyond), fun _ within fraction => ?_⟩
    exact decode_of_fraction sign (mt lt_magnitude_iff.mpr (not_lt.mpr within))
      (mt exists_int_magnitude_iff.mpr fraction)

/-- A number without a value, an infinity or a NaN, fails the first check. -/
theorem decode_of_value?_none {d : Decimal} (unvalued : d.value? = none) :
    decode d = .error ⟨.decimal d, "Uint256", .notFinite⟩ := by
  cases d with
  | finite => cases unvalued
  | infinity => rfl
  | nan => rfl

/-- A number reads as some amount exactly when it is worth a whole number up to the maximum. -/
theorem exists_decode_iff {d : Decimal} :
    (∃ a, decode d = .ok a) ↔ ∃ n : Nat, n ≤ maximum ∧ d.value? = some (n : ℚ) := by
  constructor
  · rintro ⟨a, decoded⟩
    exact ⟨a.toNat, toNat_le_maximum a, decode_eq_ok_iff.mp decoded⟩
  · rintro ⟨n, small, valued⟩
    have fits : n < 2 ^ Width.w256.bits := by
      have top : maximum < 2 ^ Width.w256.bits := by decide
      omega
    exact ⟨⟨n, fits⟩, decode_eq_ok_iff.mpr valued⟩

theorem read_tooLarge {raw : Value} {holder : Holder} (failed : Decimal.read raw = .error (.tooLarge holder)) :
    ∃ sign coefficient third, raw = .list [sign, coefficient, third] := by
  unfold Decimal.read at failed
  split at failed
  · split at failed <;> cases failed
  · cases failed
  · cases failed
  · cases failed
  · exact ⟨_, _, _, rfl⟩
  · cases failed

/-- Reading a number as an amount reports the first of its checks that fails (finite, not below
zero, at most `2 ^ 256 - 1`, whole), judged on its exact value, and otherwise reads the whole
number it is worth; a supplied value lets a machine integer's overflow in its parts through. -/
theorem decode_checks_in_order (d : Decimal) (raw : Value) :
    ((d.value? = none → decode d = .error ⟨.decimal d, "Uint256", .notFinite⟩) ∧
      (∀ q, d.value? = some q →
        (q < 0 → decode d = .error ⟨.decimal d, "Uint256", .negative⟩) ∧
        (0 ≤ q → (maximum : ℚ) < q → decode d = .error ⟨.decimal d, "Uint256", .exceedsMaximum⟩) ∧
        (0 ≤ q → q ≤ maximum → (¬∃ n : Int, q = n) →
          decode d = .error ⟨.decimal d, "Uint256", .notIntegral⟩)) ∧
      (∀ a, decode d = .ok a ↔ d.value? = some (a.toNat : ℚ)) ∧
      ((∃ a, decode d = .ok a) ↔ ∃ n : Nat, n ≤ maximum ∧ d.value? = some (n : ℚ)) ∧
      (∀ a, decode d = .ok a → (toDecimal a).value? = d.value?)) ∧
    ((∀ d', Decimal.read raw = .ok d' → decodeValue raw = (decode d').mapError .conversion) ∧
      (Decimal.read raw = .error .notDecimal →
        decodeValue raw = .error (.conversion ⟨.value raw, "Uint256", .notDecimal⟩)) ∧
      (∀ holder, Decimal.read raw = .error (.tooLarge holder) →
        decodeValue raw = .error (.tooLarge holder) ∧ ∃ sign coefficient third, raw = .list [sign, coefficient, third])) := by
  refine ⟨⟨decode_of_value?_none, fun q valued => ?_, fun a => decode_eq_ok_iff, exists_decode_iff,
    fun a decoded => ?_⟩, ⟨fun d read => ?_, fun read => ?_, fun holder read => ⟨?_, read_tooLarge read⟩⟩⟩
  · cases d with
    | finite negative c e => exact decode_finite_checks valued
    | infinity => cases valued
    | nan => cases valued
  · rw [value?_toDecimal, decode_eq_ok_iff.mp decoded]
  all_goals unfold decodeValue; rw [read]

/-- A list of three parts whose digit is `2 ^ 64` has no decimal number, as the digit overflows
the machine integer it passes through, and reading it as an amount fails with that overflow
rather than as a value that is no decimal number. -/
theorem decodeValue_digit_beyond_long :
    Decimal.read (.list [.int 0, .list [.int 18446744073709551616], .int 0]) = .error (.tooLarge .long) ∧
      decodeValue (.list [.int 0, .list [.int 18446744073709551616], .int 0]) = .error (.tooLarge .long) ∧
      ∀ e, decodeValue (.list [.int 0, .list [.int 18446744073709551616], .int 0]) ≠ .error (.conversion e) := by
  have overflow : decodeValue (.list [.int 0, .list [.int 18446744073709551616], .int 0]) =
      .error (.tooLarge .long) := rfl
  refine ⟨rfl, overflow, fun e same => ?_⟩
  rw [overflow] at same
  cases same

end BridgeLedger.Amount
