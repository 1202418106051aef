/-!
# The end of a braced body

A body runs to the brace that balances the one which opened it. Braces in quoted text and in
comments do not count; a body that is never closed runs to the end of the source.
-/

namespace PromptPack.Outline

/-- The characters after a quoted text, with the bytes it took, from right behind its opening
mark on. A backslash hides the character after it. -/
def skipQuoted (mark : Char) : List Char → Nat → List Char × Nat
  | [], n => ([], n)
  | c :: rest, n =>
    if c == mark then (rest, n + c.utf8Size)
    else if c == '\\' then
      match rest with
      | [] => ([], n + c.utf8Size)
      | d :: rest' => skipQuoted mark rest' (n + c.utf8Size + d.utf8Size)
    else skipQuoted mark rest (n + c.utf8Size)

/-- The rest of the line, the line feed included. -/
def skipLine : List Char → Nat → List Char × Nat
  | [], n => ([], n)
  | c :: rest, n => if c == '\n' then (rest, n + 1) else skipLine rest (n + c.utf8Size)

/-- What stands after the next end of a block comment. -/
def skipBlock : List Char → Nat → List Char × Nat
  | [], n => ([], n)
  | c :: rest, n =>
    match c, rest with
    | '*', '/' :: rest' => (rest', n + 2)
    | _, _ => skipBlock rest (n + c.utf8Size)

theorem skipQuoted_length (mark : Char) (cs : List Char) (n : Nat) :
    (skipQuoted mark cs n).1.length ≤ cs.length := by
  fun_induction skipQuoted mark cs n with
  | case1 => exact Nat.le_refl _
  | case2 => exact Nat.le_succ _
  | case3 => exact Nat.zero_le _
  | case4 n c d rest' _ _ ih => exact Nat.le_succ_of_le (Nat.le_succ_of_le ih)
  | case5 n c rest _ _ ih => exact Nat.le_succ_of_le ih

theorem skipLine_length (cs : List Char) (n : Nat) : (skipLine cs n).1.length ≤ cs.length := by
  fun_induction skipLine cs n with
  | case1 => exact Nat.le_refl _
  | case2 => exact Nat.le_succ _
  | case3 n c rest _ ih => exact Nat.le_succ_of_le ih

theorem skipBlock_length (cs : List Char) (n : Nat) : (skipBlock cs n).1.length ≤ cs.length := by
  fun_induction skipBlock cs n with
  | case1 => exact Nat.le_refl _
  | case2 => exact Nat.le_succ_of_le (Nat.le_succ _)
  | case3 n c rest _ ih => exact Nat.le_succ_of_le ih

/-- The bytes up to and including the brace that closes the innermost `depth + 1` open blocks. -/
def balanceFrom (depth : Nat) (cs : List Char) (n : Nat) : Nat :=
  match cs with
  | [] => n
  | c :: rest =>
    if c == '{' then balanceFrom (depth + 1) rest (n + 1)
    else if c == '}' then
      match depth with
      | 0 => n + 1
      | depth + 1 => balanceFrom depth rest (n + 1)
    else if c == '"' || c == '\'' then
      let after := skipQuoted c rest (n + 1)
      balanceFrom depth after.1 after.2
    else if c == '/' && rest.head? == some '/' then
      let after := skipLine rest (n + 1)
      balanceFrom depth after.1 after.2
    else if c == '/' && rest.head? == some '*' then
      let after := skipBlock rest.tail (n + 2)
      balanceFrom depth after.1 after.2
    else balanceFrom depth rest (n + c.utf8Size)
termination_by cs.length
decreasing_by
  all_goals simp_wf
  · have := skipQuoted_length c rest (n + 1); omega
  · have := skipLine_length rest (n + 1); omega
  · have := skipBlock_length rest.tail (n + 2); simp at this; omega

/-- The length in bytes of the body whose opening brace stands right before `cs`. -/
def bodyLength (cs : List Char) : Nat := balanceFrom 0 cs 0

end PromptPack.Outline
