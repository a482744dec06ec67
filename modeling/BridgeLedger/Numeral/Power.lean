
namespace BridgeLedger.Numeral

/-- Powers of naturals are core's, also where an algebra library would pick its monoid power; a
numeral exponent is written with its type, `2 ^ (63 : Nat)`, for the same reason. -/
instance (priority := 1100) powNat : Pow Nat Nat := instPowNat

end BridgeLedger.Numeral
