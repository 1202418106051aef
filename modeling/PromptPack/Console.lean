/-!
# Coloured lines for a terminal

A status line is a symbol in brackets and a message; colours are switched on by an escape
sequence and off again by its counterpart, and left out altogether on request.
-/

namespace PromptPack.Console

/-- A display attribute with the parameters that switch it on and off. -/
inductive Style
  | bold
  | dim
  | white
  | green
  | yellow
  | cyan
  deriving DecidableEq, Repr

def Style.on : Style → String
  | .bold => "1"
  | .dim => "2"
  | .white => "37"
  | .green => "32"
  | .yellow => "33"
  | .cyan => "36"

/-- A weight is reset altogether; a colour falls back to the default one. -/
def Style.off : Style → String
  | .bold => "0"
  | .dim => "0"
  | _ => "39"

def escape (parameter : String) : String := "\x1b[" ++ parameter ++ "m"

def Style.apply (style : Style) (text : String) : String :=
  escape style.on ++ text ++ escape style.off

inductive Status
  | success
  | info
  | warning
  deriving DecidableEq, Repr

def Status.symbol : Status → String
  | .success => "✓"
  | .info => "i"
  | .warning => "!"

def Status.colour : Status → Style
  | .success => .green
  | .info => .cyan
  | .warning => .yellow

/-- The bracketed symbol and the message, coloured unless `plain`. -/
def statusLine (status : Status) (message : String) (plain : Bool) : String :=
  if plain then "[" ++ status.symbol ++ "] " ++ message
  else
    let strong (text : String) := Style.bold.apply (Style.white.apply text)
    strong "[" ++ strong status.symbol ++ strong "]" ++ " " ++ status.colour.apply message

end PromptPack.Console
