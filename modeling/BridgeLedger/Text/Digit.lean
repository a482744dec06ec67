
namespace BridgeLedger.Text

/-- First code points of the runs of ten decimal digits (Unicode 14.0, category Nd), zero first in
each run, in increasing order. -/
def digitRuns : List Nat := [
  0x30, 0x660, 0x6F0, 0x7C0, 0x966, 0x9E6, 0xA66, 0xAE6, 0xB66, 0xBE6,
  0xC66, 0xCE6, 0xD66, 0xDE6, 0xE50, 0xED0, 0xF20, 0x1040, 0x1090, 0x17E0,
  0x1810, 0x1946, 0x19D0, 0x1A80, 0x1A90, 0x1B50, 0x1BB0, 0x1C40, 0x1C50, 0xA620,
  0xA8D0, 0xA900, 0xA9D0, 0xA9F0, 0xAA50, 0xABF0, 0xFF10, 0x104A0, 0x10D30, 0x11066,
  0x110F0, 0x11136, 0x111D0, 0x112F0, 0x11450, 0x114D0, 0x11650, 0x116C0, 0x11730, 0x118E0,
  0x11950, 0x11C50, 0x11D50, 0x11DA0, 0x16A60, 0x16AC0, 0x16B50, 0x1D7CE, 0x1D7D8, 0x1D7E2,
  0x1D7EC, 0x1D7F6, 0x1E140, 0x1E2F0, 0x1E950, 0x1FBF0]

/-- The value of a decimal digit of any script, its distance from the start of its run, or none
for any other character. -/
def digitValue? (c : Char) : Option Nat :=
  (digitRuns.find? (fun start => start ≤ c.toNat && c.toNat < start + 10)).map (c.toNat - ·)

def asciiDigit? (c : Char) : Option Char :=
  (digitValue? c).map (fun d => Char.ofNat (48 + d))

def digitsValue (ds : List Char) : Nat :=
  ds.foldl (fun n d => 10 * n + (d.toNat - 48)) 0

/-- Whether a text spells a word, ignoring ASCII case. -/
def spells (cs : List Char) (word : String) : Bool :=
  cs.map Char.toLower == word.toList

theorem digitValue?_lt_ten {c : Char} {d : Nat} (read : digitValue? c = some d) : d < 10 := by
  unfold digitValue? at read
  obtain ⟨start, found, same⟩ := Option.map_eq_some_iff.mp read
  have inside := List.find?_some found
  simp only [Bool.and_eq_true, decide_eq_true_eq] at inside
  omega

example : digitValue? '7' = some 7 ∧ digitValue? (Char.ofNat 0x663) = some 3 ∧
    digitValue? (Char.ofNat 0xFF11) = some 1 ∧ digitValue? 'a' = none := by decide

theorem toNat_of_isDigit {c : Char} (digit : c.isDigit = true) : 48 ≤ c.toNat ∧ c.toNat ≤ 57 := by
  simp only [Char.isDigit, Bool.and_eq_true, decide_eq_true_eq, UInt32.le_iff_toNat_le,
    ge_iff_le] at digit
  have same : c.toNat = c.val.toNat := rfl
  have zero : '0'.val.toNat = 48 := rfl
  have nine : '9'.val.toNat = 57 := rfl
  omega

theorem toLower_of_isDigit {c : Char} (digit : c.isDigit = true) : c.toLower = c := by
  have bounds := toNat_of_isDigit digit
  have same : c.toNat = c.val.toNat := rfl
  have letter : 'A'.val.toNat = 65 := rfl
  unfold Char.toLower
  rw [dif_neg]
  simp only [ge_iff_le, UInt32.le_iff_toNat_le, not_and]
  omega

/-- A text that starts with a digit spells no word that starts with a letter. -/
theorem spells_of_isDigit {c : Char} {rest : List Char} {word : String} (digit : c.isDigit = true)
    (letter : word.toList.head?.all (fun w => !w.isDigit) = true) :
    spells (c :: rest) word = false := by
  unfold spells
  cases h : word.toList with
  | nil => simp
  | cons w ws =>
    rw [h] at letter
    simp only [List.head?_cons, Option.all_some, Bool.not_eq_true'] at letter
    have differ : c ≠ w := fun same => by rw [same] at digit; simp_all
    simp [toLower_of_isDigit digit, differ]

theorem digitsValue_toDigits (n : Nat) : digitsValue (Nat.toDigits 10 n) = n :=
  Nat.ofDigitChars_ten_toDigits

theorem toDigits_head_ne_zero {n : Nat} (pos : 0 < n) : (Nat.toDigits 10 n).head? ≠ some '0' := by
  induction n using Nat.strongRecOn with
  | ind n ih =>
    rw [Nat.toDigits_eq_if (by decide)]
    split
    · rename_i small
      have every : ∀ m, m < 10 → 0 < m → Nat.digitChar m ≠ '0' := by decide
      simpa using every n small pos
    · rename_i large
      have tail := ih (n / 10) (by omega) (by omega)
      rw [List.head?_append]
      cases h : (Nat.toDigits 10 (n / 10)).head? with
      | none => simp_all
      | some x => simp_all

/-- `s` is the usual decimal text of `n`: ASCII digits only, at least one, and no leading zero
unless the text is `0`. -/
def CanonicalDigits (s : String) (n : Nat) : Prop :=
  s.toList ≠ [] ∧ (∀ c ∈ s.toList, c.isDigit = true) ∧ (s.toList.head? = some '0' → s = "0") ∧
    digitsValue s.toList = n

theorem canonicalDigits_toString (n : Nat) : CanonicalDigits (toString n) n := by
  refine ⟨by simp, fun c mem => ?_, fun head => ?_, ?_⟩
  · simp only [Nat.toString_eq_repr, Nat.toList_repr] at mem
    exact Nat.isDigit_of_mem_toDigits (by decide) (by decide) mem
  · simp only [Nat.toString_eq_repr, Nat.toList_repr] at head
    rcases Nat.eq_zero_or_pos n with zero | pos
    · subst zero; rfl
    · exact absurd head (toDigits_head_ne_zero pos)
  · simp only [Nat.toString_eq_repr, Nat.toList_repr]
    exact digitsValue_toDigits n

end BridgeLedger.Text
