import BridgeLedger.Word.Compare

namespace BridgeLedger

namespace Comparison

/-- What an operator says of two natural numbers. -/
def Means : Comparison → Nat → Nat → Prop
  | .eq, m, n => m = n
  | .ne, m, n => m ≠ n
  | .lt, m, n => m < n
  | .le, m, n => m ≤ n
  | .gt, m, n => n < m
  | .ge, m, n => n ≤ m

instance (c : Comparison) (m n : Nat) : Decidable (c.Means m n) :=
  match c with
  | .eq => inferInstanceAs (Decidable (m = n))
  | .ne => inferInstanceAs (Decidable (m ≠ n))
  | .lt => inferInstanceAs (Decidable (m < n))
  | .le => inferInstanceAs (Decidable (m ≤ n))
  | .gt => inferInstanceAs (Decidable (n < m))
  | .ge => inferInstanceAs (Decidable (n ≤ m))

/-- An operator holds of the order of two numbers exactly when it says so of them. -/
theorem holds_compare (c : Comparison) (m n : Nat) : c.holds (some (compare m n)) = decide (c.Means m n) := by
  rw [Bool.eq_iff_iff, decide_eq_true_iff]
  cases c with
  | eq => simp only [holds, beq_iff_eq, Means, Nat.compare_eq_eq]
  | ne => simp only [holds, bne_iff_ne, ne_eq, Means, Nat.compare_eq_eq]
  | lt => simp only [holds, beq_iff_eq, Means, Nat.compare_eq_lt]
  | le => simp only [holds, bne_iff_ne, Means, Nat.compare_ne_gt]
  | gt => simp only [holds, beq_iff_eq, Means, Nat.compare_eq_gt]
  | ge => simp only [holds, bne_iff_ne, Means, Nat.compare_ne_lt]

theorem means_converse (c : Comparison) (m n : Nat) : c.converse.Means m n ↔ c.Means n m := by
  cases c <;> simp only [converse, Means, eq_comm, ne_comm]

@[simp] theorem converse_converse (c : Comparison) : c.converse.converse = c := by
  cases c <;> rfl

@[simp] theorem isEquality_converse (c : Comparison) : c.converse.isEquality = c.isEquality := by
  cases c <;> rfl

@[simp] theorem converse_beq_ne (c : Comparison) : (c.converse == .ne) = (c == .ne) := by
  cases c <;> rfl

end Comparison

namespace Value

/-- Whether a value is an integer to the comparison rules: a plain integer, or a truth value, which
is an integer too. -/
def isInteger : Value → Bool
  | .int _ => true
  | .bool _ => true
  | _ => false

end Value

namespace Word

variable {w : Width} (x : Word w) (c : Comparison)

/-- The outcome of comparing a word, on the left, with an operand by the rule of words: against a
word of its width, what the operator says of the two values; against any other integer, a refusal
(`none`); against a value that is no integer, unequal and without order. -/
def byRule : Operand → Option Bool
  | .word w' y => if w = w' then some (decide (c.Means x.toNat y.toNat)) else none
  | .plain v => if v.isInteger || !c.isEquality then none else some (c == .ne)

theorem compare_same_width (y : Word w) :
    Operand.compare c (.word w x) (.word w y) = .ok (decide (c.Means x.toNat y.toNat)) := by
  simp [Operand.compare, compareWith, Comparison.holds_compare]

/-- On the left of any operand but a double, a word compares by the rule. -/
theorem compare_left_byRule (b : Operand) (notDouble : ∀ f, b ≠ .plain (.float f)) :
    (Operand.compare c (.word w x) b).toOption = x.byRule c b := by
  cases b with
  | word w' y =>
    by_cases same : w = w'
    · subst same
      rw [x.compare_same_width c y]
      simp [byRule, Except.toOption]
    · simp [Operand.compare, compareWith, byRule, Except.toOption, same]
  | plain v =>
    cases v with
    | float f => exact absurd rfl (notDouble f)
    | int n => rfl
    | bool t => rfl
    | _ => cases c <;> rfl

/-- On the right of any operand but a double or a truth value, a word compares by the rule with
the converse operator: `b < x` is decided as `x > b`. -/
theorem compare_right_byRule (b : Operand) (notDouble : ∀ f, b ≠ .plain (.float f))
    (notTruth : ∀ t, b ≠ .plain (.bool t)) :
    (Operand.compare c b (.word w x)).toOption = x.byRule c.converse b := by
  cases b with
  | word w' y =>
    by_cases same : w = w'
    · subst same
      have swapped := (c.means_converse x.toNat y.toNat).symm
      rw [y.compare_same_width c x]
      simp [byRule, Except.toOption, swapped]
    · have other : w' ≠ w := Ne.symm same
      simp [Operand.compare, compareWith, byRule, Except.toOption, same, other]
  | plain v =>
    cases v with
    | float f => exact absurd rfl (notDouble f)
    | bool t => exact absurd rfl (notTruth t)
    | int n => rfl
    | _ => cases c <;> rfl

theorem eq_of_byRule_eq {b : Operand} (equal : x.byRule .eq b = some true) : b = .word w x := by
  cases b with
  | word w' y =>
    by_cases same : w = w'
    · subst same
      simp only [byRule, if_true, Option.some.injEq] at equal
      have values : x.toNat = y.toNat := of_decide_eq_true equal
      rw [Word.ext values]
    · simp [byRule, same] at equal
  | plain v =>
    cases v <;> simp [byRule, Value.isInteger, Comparison.isEquality] at equal

end Word

theorem Operand.hashAlike_word_self {w : Width} (x : Word w) : Operand.hashAlike (.word w x) (.word w x) = .ok true :=
  congrArg Except.ok (decide_eq_true rfl)

theorem Operand.hashKey_plain_ne_word (v : Value) (w : Width) (r : Nat) : Operand.hashKey (.plain v) ≠ .ok (.word w r) := by
  simp only [Operand.hashKey]
  split <;> simp
  -- an empty text or byte string is keyed as the number zero, a longer one by its buffer
  all_goals split <;> simp

/-- A word hashes alike with no plain value, not even one it equals. -/
theorem Operand.hashAlike_word_plain {w : Width} (x : Word w) (v : Value) :
    Operand.hashAlike (.word w x) (.plain v) ≠ .ok true := by
  intro alike
  cases keyed : Operand.hashKey (.plain v) with
  | error r =>
    simp only [Operand.hashAlike, keyed] at alike
    cases alike
  | ok k =>
    simp only [Operand.hashAlike, keyed] at alike
    have same : HashKey.word w (x.toNat % hashModulus) = k := of_decide_eq_true (Except.ok.inj alike)
    exact Operand.hashKey_plain_ne_word v w _ (keyed.trans (congrArg Except.ok same.symm))

namespace Word

variable {w : Width} (x : Word w) (c : Comparison)

/-- A double on the left of a word decides the comparison itself, by its exact order with the
word's value, unless it is a whole number of the value's bit length beyond 48 bits: that one it
makes an integer, which the word refuses with the converse operator. -/
theorem compare_double_right (f : Float) :
    Operand.compare c (.plain (.float f)) (.word w x) =
      if wholeOfSameLength f x.toNat then .error (.unsupported c.converse.symbol w.name "int")
      else .ok (c.holds (orderFloatInt f x.toNat)) := rfl

example : Operand.compare .eq (.plain (.float (Float.ofBits 0x4340000000000000))) (.word .w64 ⟨2 ^ (53 : Nat), by decide⟩) =
    .error (.unsupported "==" "Uint64" "int") := rfl

/-- A word on the left of a double answers `==` and `!=` as the double on its left does, and
refuses to order it. -/
theorem compare_double_left (f : Float) :
    Operand.compare c (.word w x) (.plain (.float f)) =
      if c.isEquality then Operand.compare c (.plain (.float f)) (.word w x)
      else .error (.unsupported c.symbol w.name "float") := by
  cases c <;> rfl

end Word

/-- Only a value of at least `2 ^ 48` meets a whole double of its own bit length. -/
theorem wholeOfSameLength_le {f : Float} {n : Nat} (whole : wholeOfSameLength f n = true) : 2 ^ (48 : Nat) ≤ n := by
  unfold wholeOfSameLength at whole
  split at whole
  · simp only [Bool.and_eq_true, decide_eq_true_eq, beq_iff_eq] at whole
    have long : 48 ≤ n.log2 := whole.1.2
    have nonzero : n ≠ 0 := fun zero => by rw [zero, Nat.log2_zero] at long; omega
    exact (Nat.le_log2 nonzero).mp long
  · cases whole

/-- A word compares by the rule of words with every operand but a truth value on its left, which
compares as `0` or `1`, and a double, which orders only from the left by its exact value and is
refused when whole of the word's bit length, beyond `2 ^ 48`; no plain value hashes like a word. -/
theorem word_comparison_outcomes {w : Width} (x : Word w) (c : Comparison) :
    (∀ y : Word w, Operand.compare c (.word w x) (.word w y) = .ok (decide (c.Means x.toNat y.toNat)) ∧
      Operand.compare c (.word w y) (.word w x) = .ok (decide (c.Means y.toNat x.toNat))) ∧
    (∀ b : Operand, (∀ f, b ≠ .plain (.float f)) →
      (Operand.compare c (.word w x) b).toOption = x.byRule c b ∧
      (Operand.compare .eq (.word w x) b = .ok true → Operand.hashAlike (.word w x) b = .ok true)) ∧
    (∀ b : Operand, (∀ f, b ≠ .plain (.float f)) → (∀ t, b ≠ .plain (.bool t)) →
      (Operand.compare c b (.word w x)).toOption = x.byRule c.converse b ∧
      (Operand.compare .eq b (.word w x) = .ok true → Operand.hashAlike (.word w x) b = .ok true)) ∧
    (∀ v : Value, Operand.hashAlike (.word w x) (.plain v) ≠ .ok true) ∧
    (∀ t : Bool, Operand.compare c (.plain (.bool t)) (.word w x) =
      .ok (c.holds (some (compare (truthInt t) (x.toNat : Int))))) ∧
    ∀ f : Float,
      Operand.compare c (.plain (.float f)) (.word w x) =
        (if wholeOfSameLength f x.toNat then .error (.unsupported c.converse.symbol w.name "int")
          else .ok (c.holds (orderFloatInt f x.toNat))) ∧
      Operand.compare c (.word w x) (.plain (.float f)) =
        (if c.isEquality then Operand.compare c (.plain (.float f)) (.word w x)
          else .error (.unsupported c.symbol w.name "float")) ∧
      (wholeOfSameLength f x.toNat = true → 2 ^ (48 : Nat) ≤ x.toNat) := by
  -- an equality that holds is one the rule answers `true`, and the rule gives that to the word alone
  have hashes : ∀ b : Operand, x.byRule .eq b = some true → Operand.hashAlike (.word w x) b = .ok true := by
    intro b equal
    rw [x.eq_of_byRule_eq equal]
    exact Operand.hashAlike_word_self x
  refine ⟨fun y => ⟨x.compare_same_width c y, y.compare_same_width c x⟩,
    fun b notDouble => ⟨x.compare_left_byRule c b notDouble, fun equal => ?_⟩,
    fun b notDouble notTruth => ⟨x.compare_right_byRule c b notDouble notTruth, fun equal => ?_⟩,
    Operand.hashAlike_word_plain x, fun t => rfl,
    fun f => ⟨x.compare_double_right c f, x.compare_double_left c f, wholeOfSameLength_le⟩⟩
  · have byRule := x.compare_left_byRule .eq b notDouble
    rw [equal] at byRule
    exact hashes b byRule.symm
  · have byRule := x.compare_right_byRule .eq b notDouble notTruth
    rw [equal] at byRule
    exact hashes b byRule.symm

/-- A text on the left of a word of 32 bits: it is no double and no truth value, so the word refuses
to be ordered against it and is unequal to it. -/
theorem word_comparison_outcomes_text :
    (∀ f, Operand.plain (.str "5") ≠ .plain (.float f)) ∧ (∀ t, Operand.plain (.str "5") ≠ .plain (.bool t)) ∧
      (Operand.compare .lt (.plain (.str "5")) (.word .w32 ⟨5, by decide⟩)).toOption = none ∧
      (Operand.compare .eq (.plain (.str "5")) (.word .w32 ⟨5, by decide⟩)).toOption = some false := by
  have notDouble : ∀ f, Operand.plain (.str "5") ≠ .plain (.float f) := fun f same => by cases same
  have notTruth : ∀ t, Operand.plain (.str "5") ≠ .plain (.bool t) := fun t same => by cases same
  refine ⟨notDouble, notTruth, ?_, ?_⟩
  · rw [((word_comparison_outcomes ⟨5, by decide⟩ .lt).2.2.1 _ notDouble notTruth).1]
    rfl
  · rw [((word_comparison_outcomes ⟨5, by decide⟩ .eq).2.2.1 _ notDouble notTruth).1]
    rfl

/-- A word of 32 bits worth five equals the double five, with which it does not hash alike, and the
truth value `true` on its left is ordered below it instead of refused. -/
theorem word_meets_double_and_truth :
    Operand.compare .eq (.word .w32 ⟨5, by decide⟩) (.plain (.float (Float.ofBits 0x4014000000000000))) = .ok true ∧
      Operand.hashAlike (.word .w32 ⟨5, by decide⟩) (.plain (.float (Float.ofBits 0x4014000000000000))) =
        .ok false ∧
      Operand.compare .lt (.plain (.bool true)) (.word .w32 ⟨5, by decide⟩) = .ok true :=
  ⟨rfl, rfl, rfl⟩

end BridgeLedger
