import PromptPack.Tokens.Fragments
import PromptPack.Tokens.Merge
import PromptPack.Tokens.Piece
import PromptPack.Tokens.Scripts
import PromptPack.Tokens.Words
/-!
# Vocabularies

The byte strings that count as one token, by family, in the order of their ranks behind the single
bytes. The tables hold the most frequent entries; a text whose words they lack is counted by the
fragments of its words.
-/

namespace PromptPack.Tokens

/-- Words that are one token with and without a blank before them and a capital at their front. -/
def words : List (List UInt8) := wordEntries (frequentWords ++ furtherWords)

/-- Words that are one token in capitals, with and without a blank before them. -/
def capitalWords : List (List UInt8) := spacedEntries capitalizedWords

/-- Signs that are one token in every family. -/
def signs : List (List UInt8) := entries [
  "() [] \x7b\x7d == != <= >= => -> :: // /* */ && || ++ += -= ... .. !! !!! ?? ??? (\" \") \"); ): );",
  "·\x7b ·\x7d ·\x7b\x7d ·= ·== ·!= ·< ·> ·<= ·>= ·-> ·=> ·+ ·- ·* ·/ ·% ·& ·&& ·| ·|| ·? ·: ·\" ·' ·[",
  "·( ·</ ·// ·# ·\\ ·< :// '( ') \", ', \": ': .\" ,\" ?\" !\" \x60\x60 (' (); (), [] [' '] [\" \"]",
  "</ \"> /> =\" ## ### ** -- --- ____ ** )) )) ). ), ], ]. ]: ]; )] )[ \x7d, \x7d; \x7d) \x7d\x7d \x7b\x7b",
  "(( ([ (\x7b [[ ]] << >> := <- ·:= ·<- ·<< ·>> ·... ·-- ·! ·@ ·$ ·^ ·~ ·\x60 ·* ·** ·+= ·-= ·++ ·/* ·*/",
  "#### ---- ======== ==== === ·=== ·!== !== &# *) (* $\x7b ·$\x7b .[ .) ./ ../ ·./ ·(\" ·(' ·[\" ·[' ·\x7b\" '' \"\""]

/-- Signs that the newer families have with a line end behind them, the shorter first. -/
def lineEndSigns : List (List UInt8) := entries [
  "·\x7b⏎ ·\x7d⏎ \x7b⏎ \x7d⏎ \x7d⏎⏎ ;⏎ );⏎ )⏎ ()⏎ \");⏎ \")⏎ !⏎ .⏎ .⏎⏎ ,⏎ :⏎ ):⏎ ();⏎ \",⏎ \x60\x60\x60⏎",
  "\x7d;⏎ \x7d);⏎ \x7d,⏎ ];⏎ ],⏎ ]⏎ '⏎ \"⏎ ',⏎ ');⏎ ')⏎ ?⏎ >⏎ \">⏎ ),⏎ ));⏎ ))⏎ ;⏎⏎ )⏎⏎ :⏎⏎ ?⏎⏎ !⏎⏎ \x7d)⏎",
  "\x60);⏎ \x7d\x60);⏎ ->⏎ ·->⏎ */⏎ ·*/⏎ ·=⏎ ·(⏎ (⏎ ·[⏎ [⏎ ···⏎ ····⏎ ·⏎ ··⏎ ··⏎⏎ ·⏎⏎ ⇤⏎ ⇤⏎⇤⏎"]

/-- The first entries of the two older families beyond what all share. -/
def olderEntries : List (List UInt8) :=
  entries ["12 90 45 67 123 890 2019 2020 ·12 ·123"] ++
    (numeralEntries 2).map (32 :: ·) ++ numeralEntries 2 ++ (numeralEntries 1).map (32 :: ·) ++
    numeralEntries 3 ++ olderScripts ++
    grownEntries ["·Dec imal pre vent prevent De Def ault Default Sub mit Ser Par ser Ele"] ++
    grownEntries ["·SC RE ING AM DE AD BE EF OUNT HTTP ·XML ung ·Sch ler"] ++ entries ["·submit ·Submit"]

/-- What both newer families have beyond what all share. -/
def newerEntries : List (List UInt8) :=
  runEntries ' ' (List.range 127 |>.map (· + 2)) ++ runEntries '\t' (List.range 15 |>.map (· + 2)) ++
    numeralEntries 2 ++ numeralEntries 3 ++ lineEndSigns ++
    entries [
  "!(\" \x60\x60\x60 =c #f ·é 'LL aaaaaaaa ·** Camel Identifier (\x60/ (\x60 /$\x7b (*)"] ++
    newerScripts ++ ledEntries ['_', '.', '(', '/', '\t'] codeWords ++
    wordEntries ["submit decimal tabs newline"] ++ spacedEntries ["COUNT"] ++
    grownEntries ["Dec imal Ser Par ser Ele RE AM ING DE AD BE EF BEEF HTTP ·XML ·Sch ·SC"] ++
    ledEntries ['_', '.', ' '] capitalizedWords

/-- The entries of a family behind the single bytes, by rank. -/
def vocabulary : Encoding → List (List UInt8)
  | .r50k => fragments ++ olderEntries ++ signs ++ words ++ capitalWords
  | .p50k =>
    fragments ++ olderEntries ++ signs ++ words ++ capitalWords ++
      runEntries ' ' (List.range 24 |>.map (· + 2))
  | .cl100k =>
    fragments ++ newerEntries ++ cl100kScripts ++ signs ++ words ++ capitalWords ++
      runEntries '\n' [2, 3, 4, 8, 16, 32] ++ spacedEntries joinedWords
  | .o200k =>
    fragments ++ newerEntries ++ o200kScripts ++ signs ++ words ++ capitalWords ++
      runEntries '\n' [2, 3, 4, 8, 16] ++ wordEntries contractedWords ++ grownEntries ["·SCRE"]

/-- The bytes that stand for themselves. -/
def singleBytes : List (List UInt8) := (List.range 256).map fun n => [n.toUInt8]

def ranksOf (encoding : Encoding) : Ranks := Ranks.ofList (singleBytes ++ vocabulary encoding)

def ranksR50k : Ranks := ranksOf .r50k
def ranksP50k : Ranks := ranksOf .p50k
def ranksCl100k : Ranks := ranksOf .cl100k
def ranksO200k : Ranks := ranksOf .o200k

/-- The ranks of a family, made once. -/
def ranks : Encoding → Ranks
  | .r50k => ranksR50k
  | .p50k => ranksP50k
  | .cl100k => ranksCl100k
  | .o200k => ranksO200k

/-- The tokens of a text as ranks. -/
def encode (encoding : Encoding) (s : String) : List Nat :=
  (pieces encoding s).flatMap fun piece =>
    (tokensOf (ranks encoding) (bytesOfChars piece)).map fun t => ((ranks encoding)[t]?).getD 0

end PromptPack.Tokens
