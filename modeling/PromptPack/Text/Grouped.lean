/-!
# Numbers with thousands separators

A numeral is cut from its end into groups of three digits, joined by commas.
-/

namespace PromptPack.Text

/-- Puts a comma before every digit that has a positive multiple of three digits after it; the
first digit never gets one. -/
def groupDigits : List Char → List Char
  | [] => []
  | [d] => [d]
  | d :: e :: ds =>
    if (ds.length + 1) % 3 == 0 then d :: ',' :: groupDigits (e :: ds)
    else d :: groupDigits (e :: ds)

/-- The decimal numeral of `n` with commas between groups of three. -/
def grouped (n : Nat) : String := String.ofList (groupDigits (Nat.toDigits 10 n))

end PromptPack.Text
