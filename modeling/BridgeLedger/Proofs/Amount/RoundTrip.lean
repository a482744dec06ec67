import BridgeLedger.Amount

namespace BridgeLedger.Amount

/-- Every amount is written as its usual digits and read back as itself; every value that reads
as an amount denotes it, and its written form reads the same. -/
theorem encode_canonical_roundTrip :
    (∀ a : Word .w256, Text.CanonicalDigits (encode a) a.toNat ∧
        decodeValue (.str (encode a)) = .ok a) ∧
    ∀ (raw : Value) (a : Word .w256), decodeValue raw = .ok a →
      (∃ d, Decimal.read raw = .ok d ∧ d.Denotes a.toNat) ∧
      Text.CanonicalDigits (encode a) a.toNat ∧
      decodeValue (.str (encode a)) = decodeValue raw := by
  refine ⟨fun a => ⟨Text.canonicalDigits_toString _, decodeValue_encode a⟩, fun raw a read => ?_⟩
  refine ⟨?_, Text.canonicalDigits_toString _, by rw [read]; exact decodeValue_encode a⟩
  unfold decodeValue at read
  cases found : Decimal.read raw with
  | error u => cases u <;> (rw [found] at read; cases read)
  | ok d =>
    rw [found] at read
    exact ⟨d, rfl, denotes_of_decode (mapError_eq_ok.mp read)⟩

/-- A text with blanks, an underscore, a point and an exponent reads as 105, which is written
`105` and reads the same. -/
theorem encode_canonical_roundTrip_fraction :
    decodeValue (.str " 1_0.50E+1 ") = .ok ⟨105, by decide⟩ ∧
      Text.CanonicalDigits (encode ⟨105, by decide⟩) 105 ∧
      decodeValue (.str (encode ⟨105, by decide⟩)) = decodeValue (.str " 1_0.50E+1 ") :=
  have read : decodeValue (.str " 1_0.50E+1 ") = .ok ⟨105, by decide⟩ := by rfl
  ⟨read, (encode_canonical_roundTrip.2 _ _ read).2⟩

end BridgeLedger.Amount
