import PromptPack.Tokens.Entries
/-!
# Entries beyond the basic letters

Letters with marks, other scripts and pictures. The older families have single letters of the
frequent scripts and little of the rest; the newer ones have words of many scripts.
-/

namespace PromptPack.Tokens

/-- The small letters with marks that are one token in every family. -/
def markedLetters : String := "éïßàáâãäåæçèêëìíîðñòóôõöøùúûüý"

/-- The small letters of the second alphabet, and its capitals. -/
def cyrillicSmall : String := "абвгдежзийклмнопрстуфхцчшщъыьэюя"
def cyrillicCapital : String := "АБВГДЕЖЗИКЛМНОПРСТУФХЦЧШЭЮЯ"

/-- Parts of pictures, joiners and combining signs that are one token in every family. -/
def pictureParts : List (List UInt8) := characterEntries "\ufe0f\u0301\ufffd"

/-- A blank together with the first bytes of a character: what the older families have of most. -/
def spacedBytes : List (List UInt8) :=
  [[32, 195], [32, 208], [32, 209], [32, 217], [32, 216], [32, 236]]

/-- Other scripts in the older families. -/
def olderScripts : List (List UInt8) :=
  spacedBytes ++ brokenEntries "本語日😀👍👩‍你好世界ち하" ++
    characterEntries (markedLetters ++ cyrillicSmall ++ "テキストこんには") ++ pictureParts ++
    grownEntries ["·م"] ++ characterEntries "اربيةلنم​" ++
    entries ["スト ·é ür ·où"]

/-- Other scripts in both newer families. -/
def newerScripts : List (List UInt8) :=
  characterEntries (markedLetters ++ "ÄÖÜÉ") ++
    characterEntries (cyrillicSmall ++ cyrillicCapital) ++
    characterEntries "日本語テキスト你好界中国人大小上的是不了在有我他这" ++ brokenEntries "世" ++
    pictureParts ++ characterEntries "اربيةلنمحدسعفقكهو " ++ grownEntries ["·م ·​"] ++
    entries ["·é スト für ·für Über ·Über über ·über où ·où"] ++ grownEntries ["ungen él ève"]

/-- Other scripts in the first of the newer families. -/
def cl100kScripts : List (List UInt8) :=
  brokenEntries "😀‍" ++ [[240, 159]] ++
    grownEntries ["·こんにちは 하세요 öß ·Ü üler ·Пр ив ет ·как ·д ела"] ++
    [[32, 236], [32, 236, 149], [235, 133]]

/-- Other scripts in the second of the newer families. -/
def o200kScripts : List (List UInt8) :=
  brokenEntries "👩🏽🌈🏳" ++ characterEntries "😀👍‍" ++
    grownEntries ["Grö ßere ·Üb ·Schüler ·При вет ·как ·дела 日本 你好 世界 こんにちは ·안 녕하세요 ·مر حبا"]

end PromptPack.Tokens
