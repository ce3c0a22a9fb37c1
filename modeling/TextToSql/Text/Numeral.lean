/-!
# Numerals

Natural numbers written in ASCII digits.

* `numeral?_toList_repr` : the decimal form of a number is read back as the number.
-/

namespace TextToSql.Text

/-- The natural number that ASCII digits denote; anything else denotes none. -/
def numeral? (s : List Char) : Option Nat :=
  if s.isEmpty || !s.all Char.isDigit then none else some (Nat.ofDigitChars 10 s 0)

/-- The decimal form of a number is read back as the number. -/
theorem numeral?_toList_repr (n : Nat) : numeral? n.repr.toList = some n := by
  have hdigits : (Nat.toDigits 10 n).all Char.isDigit = true :=
    List.all_eq_true.mpr fun c hc => Nat.isDigit_of_mem_toDigits (by decide) (by decide) hc
  simp [numeral?, hdigits, Nat.toDigits_ne_nil]

end TextToSql.Text
