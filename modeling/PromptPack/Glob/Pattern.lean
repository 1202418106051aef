/-!
# Glob patterns

A pattern is a list of tokens. Stars stay within one path component unless a pair of them makes
up a whole component; braces hold alternatives, also nested ones, and square brackets a class of
characters. A backslash takes the next character for itself.
-/

namespace PromptPack.Glob

inductive Token
  | literal (c : Char)
  /-- Any one byte but a slash. -/
  | single
  /-- Any number of bytes but slashes. -/
  | run
  /-- A double star in front: any leading directories. -/
  | leading
  /-- A double star at the end: anything below. -/
  | trailing
  /-- A double star in the middle: any directories between. -/
  | middle
  | oneOf (negated : Bool) (ranges : List (Char × Char))
  | choice (branches : List (List Token))
  deriving Repr, Inhabited

abbrev Pattern := List Token

/-- Why a text is no pattern. -/
inductive Cause
  | unclosedClass
  | invalidRange (low high : Char)
  | unopenedChoice
  | unclosedChoice
  | danglingEscape
  deriving DecidableEq, Repr

structure GlobError where
  glob : String
  cause : Cause
  deriving DecidableEq, Repr

def Cause.message : Cause → String
  | .unclosedClass => "unclosed character class; missing ']'"
  | .invalidRange low high =>
    "invalid range; '" ++ low.toString ++ "' > '" ++ high.toString ++ "'"
  | .unopenedChoice =>
    "unopened alternate group; missing '\x7b' (maybe escape '\x7d' with '[\x7d]'?)"
  | .unclosedChoice =>
    "unclosed alternate group; missing '\x7d' (maybe escape '\x7b' with '[\x7b]'?)"
  | .danglingEscape => "dangling '\\'"

def GlobError.message (e : GlobError) : String :=
  "error parsing glob '" ++ e.glob ++ "': " ++ e.cause.message

/-! ## Classes -/

/-- The ranges read so far, the latest first, and whether a dash waits for its upper end. -/
structure ClassState where
  ranges : List (Char × Char)
  open_ : Bool

/-- Reads a class up to its closing bracket; `first` holds for the character right after the
opening, which never closes the class. -/
def readRanges : (first : Bool) → ClassState → List Char →
    Except Cause (List (Char × Char) × List Char)
  | _, _, [] => .error .unclosedClass
  | first, st, c :: rest =>
    if c == ']' && !first then
      .ok ((if st.open_ then ('-', '-') :: st.ranges else st.ranges).reverse, rest)
    else if c == '-' && !first && !st.open_ then readRanges false ⟨st.ranges, true⟩ rest
    else
      match st.open_, st.ranges with
      | true, (low, _) :: others =>
        if c < low then .error (.invalidRange low c)
        else readRanges false ⟨(low, c) :: others, false⟩ rest
      | _, ranges => readRanges false ⟨(c, c) :: ranges, false⟩ rest

/-- Reads a class behind its opening bracket. -/
def readClass (cs : List Char) : Except Cause (Token × List Char) :=
  let (negated, body) :=
    match cs with
    | '!' :: rest => (true, rest)
    | '^' :: rest => (true, rest)
    | _ => (false, cs)
  (readRanges true ⟨[], false⟩ body).map fun (ranges, rest) => (.oneOf negated ranges, rest)

/-! ## Patterns -/

/-- A group of alternatives being read, as seen from inside: the finished branches of the group,
the latest first, and the tokens before the group, the latest first. -/
structure Frame where
  branches : List Pattern
  outer : Pattern

/-- The groups open around the reader, the innermost first, and the tokens of the branch at hand,
the latest first. -/
structure Reader where
  frames : List Frame
  tokens : Pattern

def Reader.push (r : Reader) (t : Token) : Reader := { r with tokens := t :: r.tokens }

def isSlash (c : Option Char) : Bool := c == some '/'

/-- The two characters that start a branch. -/
def startsBranch (c : Option Char) : Bool := c == some ',' || c == some '\x7b'

/-- Reads the star right before `cs`; `prev` is the character before the star. Tells the rest and
the last character consumed. -/
def Reader.star (r : Reader) (prev : Option Char) (cs : List Char) :
    Reader × Option Char × List Char :=
  match cs with
  | '*' :: rest =>
    let plain := ((r.push .run).push .run, some '*', rest)
    if r.tokens.isEmpty then
      match rest with
      | [] => (r.push .leading, some '*', [])
      | '/' :: rest' => (r.push .leading, some '/', rest')
      | _ => plain
    else if !isSlash prev && (r.frames.isEmpty || !startsBranch prev) then plain
    else
      let replaceLast (t : Token) : Reader :=
        match r.tokens with
        | .leading :: _ => r
        | .trailing :: _ => r
        | _ :: ts => { r with tokens := t :: ts }
        | [] => r
      match rest with
      | [] => (replaceLast .trailing, some '*', [])
      | '/' :: rest' => (replaceLast .middle, some '/', rest')
      | c :: _ =>
        if (c == ',' || c == '\x7d') && !r.frames.isEmpty then
          (replaceLast .trailing, some '*', rest)
        else plain
  | _ => (r.push .run, some '*', cs)

/-- Reads the characters from the reader's state on; the number bounds the steps, each of which takes
at least one character. Where it is allowed, a bracket that opens no class stands for itself. -/
def readTokens (lenient : Bool) :
    Nat → Reader → (prev : Option Char) → List Char → Except Cause Pattern
  | _, r, _, [] => if r.frames.isEmpty then .ok r.tokens.reverse else .error .unclosedChoice
  | 0, _, _, _ => .error .unclosedChoice
  | fuel + 1, r, prev, c :: cs =>
    if c == '?' then readTokens lenient fuel (r.push .single) (some c) cs
    else if c == '*' then
      let (r', last, rest) := r.star prev cs
      readTokens lenient fuel r' last rest
    else if c == '[' then
      match readClass cs with
      | .ok (t, rest) => readTokens lenient fuel (r.push t) (some ']') rest
      | .error e =>
        if lenient && e == .unclosedClass then
          readTokens lenient fuel (r.push (.literal c)) (some c) cs
        else .error e
    else if c == '\x7b' then readTokens lenient fuel ⟨⟨[], r.tokens⟩ :: r.frames, []⟩ (some c) cs
    else if c == '\x7d' then
      match r.frames with
      | [] => .error .unopenedChoice
      | f :: frames =>
        let all := (r.tokens.reverse :: f.branches).reverse
        readTokens lenient fuel ⟨frames, .choice all :: f.outer⟩ (some c) cs
    else if c == ',' then
      match r.frames with
      | [] => readTokens lenient fuel (r.push (.literal c)) (some c) cs
      | f :: frames =>
        readTokens lenient fuel ⟨{ f with branches := r.tokens.reverse :: f.branches } :: frames, []⟩
          (some c) cs
    else if c == '\\' then
      match cs with
      | [] => .error .danglingEscape
      | d :: rest => readTokens lenient fuel (r.push (.literal d)) (some d) rest
    else readTokens lenient fuel (r.push (.literal c)) (some c) cs

/-- The pattern that a text stands for, given whether a bracket may open no class. -/
def parseWith (lenient : Bool) (glob : String) : Except GlobError Pattern :=
  let cs := glob.toList
  (readTokens lenient cs.length ⟨[], []⟩ none cs).mapError (⟨glob, ·⟩)

/-- The pattern that a text stands for. -/
def parse (glob : String) : Except GlobError Pattern := parseWith false glob

end PromptPack.Glob
