import BridgeLedger.Decimal.Basic
import BridgeLedger.Text.Blank
import BridgeLedger.Text.Digit
import BridgeLedger.Numeral.Reading

namespace BridgeLedger.Decimal

open BridgeLedger.Text

/-- The greatest adjusted exponent of an exact decimal. -/
def maxExponent : Int := 999999999999999999

def minExponent : Int := -1999999999999999997

/-- The characters that the grammar reads, or none when one cannot be part of a number. -/
def textForm? (s : String) : Option (List Char) :=
  let cs := ((s.toList.dropWhile isBlank).reverse.dropWhile isBlank).reverse
  (cs.filter (· != '_')).mapM fun c =>
    if 0 < c.toNat ∧ c.toNat ≤ 127 then some c
    else if isBlank c then some ' '
    else asciiDigit? c

/-- Whether `c * 10 ^ e` can be held exactly. -/
def isExact (c : Nat) (e : Int) : Bool :=
  if c = 0 then minExponent ≤ e && e ≤ maxExponent
  else adjustedExponent c e ≤ maxExponent && minExponent ≤ e

def payload? (cs : List Char) : Option Nat :=
  if cs.all Char.isDigit then some (digitsValue cs) else none

def readUnsigned? (negative : Bool) (cs : List Char) : Option Decimal :=
  if spells (cs.take 3) "nan" then (payload? (cs.drop 3)).map (.nan negative false)
  else if spells (cs.take 4) "snan" then (payload? (cs.drop 4)).map (.nan negative true)
  else if spells cs "inf" || spells cs "infinity" then some (.infinity negative)
  else match Numeral.readLiteral? cs with
    | some (c, e) => if isExact c e then some (.finite negative c e) else none
    | none => none

/-- Reads a decimal text: a sign, then `inf` or `infinity`, `nan` or `snan` with a payload, or
digits with an optional point and exponent. Blanks around it and underscores are dropped, digits
of any script made ASCII, and the number must be exact. -/
def ofString? (s : String) : Option Decimal := do
  let cs ← textForm? s
  match cs with
  | '+' :: rest => readUnsigned? false rest
  | '-' :: rest => readUnsigned? true rest
  | rest => readUnsigned? false rest

theorem isBlank_eq_false_of_isDigit {c : Char} (digit : c.isDigit = true) : isBlank c = false := by
  have bounds := toNat_of_isDigit digit
  simp only [isBlank, Bool.or_eq_false_iff, Bool.and_eq_false_iff, decide_eq_false_iff_not,
    beq_eq_false_iff_ne, ne_eq]
  omega

theorem mapM_of_forall {f : Char → Option Char} : ∀ {ds : List Char}, (∀ c ∈ ds, f c = some c) →
    ds.mapM f = some ds
  | [], _ => rfl
  | c :: rest, all => by
    rw [List.mapM_cons, all c (by simp), mapM_of_forall (fun x mem => all x (by simp [mem]))]
    rfl

/-- A text of ASCII digits is read as it stands. -/
theorem textForm?_digits {s : String} (nonempty : s.toList ≠ [])
    (digits : ∀ c ∈ s.toList, c.isDigit = true) : textForm? s = some s.toList := by
  unfold textForm?
  obtain ⟨c, rest, split⟩ := List.exists_cons_of_ne_nil nonempty
  have front : s.toList.dropWhile isBlank = s.toList := by
    rw [split, List.dropWhile_cons_of_neg]
    simp [isBlank_eq_false_of_isDigit (digits c (by simp [split]))]
  have back : s.toList.reverse.dropWhile isBlank = s.toList.reverse := by
    obtain ⟨d, more, last⟩ := List.exists_cons_of_ne_nil (List.reverse_ne_nil_iff.mpr nonempty)
    have mem : d ∈ s.toList := List.mem_reverse.mp (by simp [last])
    rw [last, List.dropWhile_cons_of_neg]
    simp [isBlank_eq_false_of_isDigit (digits d mem)]
  have kept : s.toList.filter (· != '_') = s.toList := by
    refine List.filter_eq_self.mpr fun x mem => ?_
    have bounds := toNat_of_isDigit (digits x mem)
    have : x ≠ '_' := fun same => by rw [same] at bounds; simp at bounds
    simpa using this
  rw [front, back, List.reverse_reverse]
  dsimp only
  rw [kept]
  refine mapM_of_forall fun x mem => ?_
  have bounds := toNat_of_isDigit (digits x mem)
  rw [if_pos (by omega)]

/-- A text of ASCII digits whose number is exact reads as that whole number. -/
theorem ofString?_digits {s : String} (nonempty : s.toList ≠ [])
    (digits : ∀ c ∈ s.toList, c.isDigit = true)
    (short : adjustedExponent (digitsValue s.toList) 0 ≤ maxExponent) :
    ofString? s = some (.finite false (digitsValue s.toList) 0) := by
  obtain ⟨c, rest, split⟩ := List.exists_cons_of_ne_nil nonempty
  have digit : c.isDigit = true := digits c (by simp [split])
  have bounds := toNat_of_isDigit digit
  unfold ofString?
  rw [textForm?_digits nonempty digits]
  simp only [Option.bind_eq_bind, Option.bind_some]
  rw [split]
  have plus : c ≠ '+' := fun same => by rw [same] at bounds; simp at bounds
  have minus : c ≠ '-' := fun same => by rw [same] at bounds; simp at bounds
  split
  · rename_i same; exact absurd (List.cons.inj same).1 plus
  · rename_i same; exact absurd (List.cons.inj same).1 minus
  · unfold readUnsigned?
    have nan : spells ((c :: rest).take 3) "nan" = false := spells_of_isDigit digit rfl
    have snan : spells ((c :: rest).take 4) "snan" = false := spells_of_isDigit digit rfl
    have inf : spells (c :: rest) "inf" = false := spells_of_isDigit digit rfl
    have infinity : spells (c :: rest) "infinity" = false := spells_of_isDigit digit rfl
    have literal := Numeral.readLiteral?_digits nonempty digits
    rw [split] at literal short
    simp only [nan, snan, inf, infinity, Bool.false_eq_true, Bool.or_false, if_false, literal]
    have exact : isExact (digitsValue (c :: rest)) 0 = true := by
      unfold isExact
      split
      · decide
      · simp only [Bool.and_eq_true, decide_eq_true_eq]
        exact ⟨short, by decide⟩
    rw [if_pos exact]

end BridgeLedger.Decimal
