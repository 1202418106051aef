import PromptPack.Text.Blank
/-!
# Numbered lines and fenced blocks

How the code of one file is dressed up for a prompt.
-/

namespace PromptPack.Text

/-- Spaces in front of a text that has fewer than `width` characters. -/
def padStart (width : Nat) (cs : List Char) : List Char :=
  List.replicate (width - cs.length) ' ' ++ cs

/-- A line under its number: at least four columns, then a bar. -/
def numberedLine (n : Nat) (line : List Char) : List Char :=
  padStart 4 (Nat.toDigits 10 n) ++ ' ' :: '|' :: ' ' :: line

/-- Numbers the lines from `n` on and joins them with line feeds. -/
def joinNumbered : Nat → List (List Char) → List Char
  | _, [] => []
  | n, [line] => numberedLine n line
  | n, line :: rest => numberedLine n line ++ '\n' :: joinNumbered (n + 1) rest

/-- Every line of `code` under its number, counted from one. -/
def numberLines (code : String) : String :=
  String.ofList (joinNumbered 1 (splitChars (· == '\n') code.toList))

/-- The label of a fence is the extension without its dot. -/
def fenceLabel (extension : String) : List Char :=
  match extension.toList with
  | '.' :: label => label
  | label => label

/-- Three backquotes. -/
def fenceMark : String := "\x60\x60\x60"

/-- `code` as a fenced block labelled with `extension`. -/
def fence (code extension : String) : String :=
  fenceMark ++ String.ofList (fenceLabel extension) ++ "\n" ++ code ++ "\n" ++ fenceMark

end PromptPack.Text
