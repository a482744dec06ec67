
namespace BridgeLedger.Text

/-- Unicode blanks: tab to carriage return, the four information separators, space, next line,
no-break space, ogham space mark, the en quad to hair space run, the line and paragraph
separators, narrow no-break space, medium mathematical space and ideographic space. -/
def isBlank (c : Char) : Bool :=
  let n := c.toNat
  (9 ≤ n && n ≤ 13) || (28 ≤ n && n ≤ 32) || n == 0x85 || n == 0xA0 || n == 0x1680 ||
    (0x2000 ≤ n && n ≤ 0x200A) || n == 0x2028 || n == 0x2029 || n == 0x202F ||
    n == 0x205F || n == 0x3000

/-- The six ASCII blanks: space, tab, line feed, vertical tab, form feed and carriage return. -/
def isAsciiBlank (c : Char) : Bool :=
  c == ' ' || (9 ≤ c.toNat && c.toNat ≤ 13)

theorem isBlank_of_isAsciiBlank {c : Char} (ascii : isAsciiBlank c = true) : isBlank c = true := by
  simp only [isAsciiBlank, isBlank, Bool.or_eq_true, beq_iff_eq, Bool.and_eq_true,
    decide_eq_true_eq] at ascii ⊢
  rcases ascii with same | ⟨low, high⟩
  · subst same; decide
  · omega

theorem isAsciiBlank_of_isWhitespace {c : Char} (white : c.isWhitespace = true) :
    isAsciiBlank c = true := by
  simp only [Char.isWhitespace, Bool.or_eq_true, decide_eq_true_eq] at white
  simp only [isAsciiBlank, Bool.or_eq_true, beq_iff_eq, Bool.and_eq_true, decide_eq_true_eq]
  rcases white with ((same | same) | same) | same <;> subst same <;> decide

end BridgeLedger.Text
