import BridgeLedger.Value
import BridgeLedger.Numeral.Power

namespace BridgeLedger

/-- The widths of unsigned words. -/
inductive Width where
  | w32
  | w64
  | w256
  deriving DecidableEq, Repr

namespace Width

def bits : Width → Nat
  | .w32 => 32
  | .w64 => 64
  | .w256 => 256

def name : Width → String
  | .w32 => "Uint32"
  | .w64 => "Uint64"
  | .w256 => "Uint256"

end Width

/-- An unsigned word: a natural number below `2 ^ w.bits`. -/
@[ext] structure Word (w : Width) where
  toNat : Nat
  isLt : toNat < 2 ^ w.bits
  deriving DecidableEq

/-- Why a value is no word of a width. -/
inductive WordError where
  | notInteger (w : Width) (kind : String)
  | outOfRange (w : Width) (value : Int)

def WordError.message : WordError → String
  | .notInteger w kind => w.name ++ " expects an int, got " ++ kind
  | .outOfRange w value => toString value ++ " is out of range for " ++ w.name

namespace Word

def ofInt (w : Width) (n : Int) : Except WordError (Word w) :=
  if h : 0 ≤ n ∧ n.toNat < 2 ^ w.bits then .ok ⟨n.toNat, h.2⟩ else .error (.outOfRange w n)

/-- The word of a caller value: an integer in range, never a truth value. -/
def ofValue (w : Width) : Value → Except WordError (Word w)
  | .int n => ofInt w n
  | v => .error (.notInteger w v.kindName)

def display {w : Width} (x : Word w) : String :=
  w.name ++ "(" ++ toString x.toNat ++ ")"

theorem ofInt_eq_ok_iff {w : Width} {n : Int} {x : Word w} :
    ofInt w n = .ok x ↔ 0 ≤ n ∧ (x.toNat : Int) = n := by
  obtain ⟨k, bound⟩ := x
  unfold ofInt
  by_cases h : 0 ≤ n ∧ n.toNat < 2 ^ w.bits
  · rw [dif_pos h]
    simp only [Except.ok.injEq, Word.mk.injEq]
    omega
  · rw [dif_neg h]
    simp only [reduceCtorEq, false_iff]
    omega

/-- A word is read back from the integer it denotes. -/
theorem ofValue_int {w : Width} (x : Word w) : ofValue w (.int x.toNat) = .ok x :=
  ofInt_eq_ok_iff.mpr ⟨Int.natCast_nonneg _, rfl⟩

end Word

end BridgeLedger
