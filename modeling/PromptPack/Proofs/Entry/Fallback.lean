import PromptPack.Entry
import PromptPack.Proofs.Text.Bytes
/-!
# From a file to its entry

Whether a file has an entry is up to its leading bytes alone. The code of the entry is what a compressor makes of the
text; where there is no compressor, or it fails for whatever reason, the code is the text as it is dressed up
(`readable_file_falls_back`).
-/

namespace PromptPack

/-- One of the leading bytes is zero. -/
def LooksBinary (bytes : ByteArray) : Prop := ∃ i, ∃ h : i < bytes.size, i < 8192 ∧ bytes[i] = 0

theorem isBinary_iff {bytes : ByteArray} : isBinary bytes = true ↔ LooksBinary bytes := by
  have hbytes : bytes.toList = bytes.data.toList := Text.toList_loop_eq bytes 0 []
  rw [isBinary, List.contains_iff_mem, hbytes, List.mem_take_iff_getElem]
  constructor
  · rintro ⟨i, hi, hzero⟩
    rw [Nat.lt_min, Array.length_toList] at hi
    exact ⟨i, hi.2, hi.1, hzero⟩
  · rintro ⟨i, hsize, hi, hzero⟩
    exact ⟨i, Nat.lt_min.2 ⟨hi, hsize⟩, hzero⟩

namespace FileEntry

open Outline

variable {fs : FileSystem} {path rel base : Path} {loc : Location} {bytes : ByteArray} {format : FileFormat}
  {outliner : Option Outliner} {entry : FileEntry}

/-! ## Entries by their code -/

/-- The entry of a file, given its code. -/
def ofCode (path rel base : Path) (format : FileFormat) (code : String) : FileEntry where
  path := shownPath path rel base format.relativePaths
  extension := path.dottedExtension
  code := code

/-- The code of a file that does not look binary. -/
def codeOf (path : Path) (format : FileFormat) (outliner : Option Outliner) (text : String) : String :=
  (outliner.bind fun f => (f path text).toOption).getD (plainCode format path.dottedExtension text)

theorem ofContent_eq (c : Content) : ofContent path rel base format outliner c =
    if c.isBinary then none else some (ofCode path rel base format (codeOf path format outliner c.text)) := rfl

theorem ofFile_of_readable (hplace : fs.place path = some ⟨loc, some (.file bytes)⟩) (hopens : fs.opens loc = true) :
    ofFile fs path rel base format outliner = .ok (if isBinary bytes then none else
      some (ofCode path rel base format (codeOf path format outliner (Text.decodeLossy bytes)))) := by
  rw [ofFile, FileSystem.readContent, hplace]
  simp only [hopens, if_true, Except.map, ofContent_eq]
  rfl

/-- The path and the extension of an entry come from the path of the file. -/
theorem eq_ofCode_of_ofFile (h : ofFile fs path rel base format outliner = .ok (some entry)) :
    entry = ofCode path rel base format entry.code := by
  rw [ofFile] at h
  cases hread : fs.readContent path with
  | error e =>
    rw [hread] at h
    cases h
  | ok c =>
    rw [hread, Except.map, ofContent_eq] at h
    split at h
    · cases h
    · cases h
      rfl

/-! ## Compressors -/

/-- The way to make outlines that takes the language of a file from its path and leaves the rest to a compressor. -/
def outlinerOf (compressor : Language → String → Except OutlineError String) : Outliner := fun path text => do
  compressor (← Language.identify path) text

/-- Files are outlined by way of their languages. -/
theorem compressPath_eq : compressPath = outlinerOf compress := rfl

section

variable {compressor : Language → String → Except OutlineError String} {language : Language} {text : String}
  {e : OutlineError} {f : Outliner}

theorem outlinerOf_of_error (h : Language.identify path = .error e) : outlinerOf compressor path text = .error e := by
  rw [outlinerOf, h]
  rfl

theorem outlinerOf_of_ok (h : Language.identify path = .ok language) :
    outlinerOf compressor path text = compressor language text := by
  rw [outlinerOf, h]
  rfl

theorem codeOf_of_error (h : f path text = .error e) :
    codeOf path format (some f) text = codeOf path format none text := by
  simp [codeOf, h, Except.toOption]

theorem codeOf_of_ok {outline : String} (h : f path text = .ok outline) :
    codeOf path format (some f) text = outline := by
  simp [codeOf, h, Except.toOption]

/-- A file whose outline cannot be made has the entry that it has without one. -/
theorem ofFile_of_error (hplace : fs.place path = some ⟨loc, some (.file bytes)⟩) (hopens : fs.opens loc = true)
    (h : f path (Text.decodeLossy bytes) = .error e) :
    ofFile fs path rel base format (some f) = ofFile fs path rel base format none := by
  rw [ofFile_of_readable hplace hopens, ofFile_of_readable hplace hopens, codeOf_of_error h]

end

/-- How the entry of a file depends on its bytes, on the format and on a compressor. -/
structure FallsBack (fs : FileSystem) (path rel base : Path) (bytes : ByteArray) : Prop where
  /-- Only a file that looks binary has no entry, whatever is asked for. -/
  binary : ∀ format outliner, ofFile fs path rel base format outliner = .ok none ↔ LooksBinary bytes
  /-- Where the path stands for no language, it is as if there were no compressor. -/
  unidentified : ∀ format compressor e, Language.identify path = .error e →
    ofFile fs path rel base format (some (outlinerOf compressor)) = ofFile fs path rel base format none
  /-- So it is where the compressor fails. -/
  failed : ∀ format compressor language e, Language.identify path = .ok language →
    compressor language (Text.decodeLossy bytes) = .error e →
    ofFile fs path rel base format (some (outlinerOf compressor)) = ofFile fs path rel base format none
  /-- What a compressor makes is the code, whether or not rows are to be numbered and fenced. -/
  outlined : ∀ format compressor language outline, ¬ LooksBinary bytes → Language.identify path = .ok language →
    compressor language (Text.decodeLossy bytes) = .ok outline →
    ofFile fs path rel base format (some (outlinerOf compressor)) =
      .ok (some (ofCode path rel base format outline))
  /-- Without a compressor the code is the text, numbered if asked for, and then fenced unless that was declined. -/
  plain : ∀ format, ¬ LooksBinary bytes → ofFile fs path rel base format none =
    .ok (some (ofCode path rel base format
      ((if format.noFence then id else fun code => Text.fence code path.dottedExtension)
        ((if format.lineNumbers then Text.numberLines else id) (Text.decodeLossy bytes)))))
  /-- The path and the extension are the same for other contents of the file and other ways to make outlines. -/
  header : ∀ fs' format format' outliner outliner' entry entry', format'.relativePaths = format.relativePaths →
    ofFile fs path rel base format outliner = .ok (some entry) →
    ofFile fs' path rel base format' outliner' = .ok (some entry') →
    entry'.path = entry.path ∧ entry'.extension = entry.extension

/-- A file that can be read has an entry unless it looks binary, and its code is the outline of its text if that can be
made, and the text itself if not. -/
theorem readable_file_falls_back (hplace : fs.place path = some ⟨loc, some (.file bytes)⟩) (hopens : fs.opens loc = true)
    (rel base : Path) : FallsBack fs path rel base bytes := by
  have hentry (format : FileFormat) (outliner : Option Outliner) (htext : ¬ LooksBinary bytes) :
      ofFile fs path rel base format outliner =
        .ok (some (ofCode path rel base format (codeOf path format outliner (Text.decodeLossy bytes)))) := by
    rw [ofFile_of_readable hplace hopens, if_neg fun h => htext (isBinary_iff.1 h)]
  constructor
  case binary =>
    intro format outliner
    rw [ofFile_of_readable hplace hopens, ← isBinary_iff]
    cases isBinary bytes <;> simp
  case unidentified =>
    intro format compressor e hidentify
    exact ofFile_of_error hplace hopens (outlinerOf_of_error hidentify)
  case failed =>
    intro format compressor language e hidentify hcompress
    exact ofFile_of_error hplace hopens ((outlinerOf_of_ok hidentify).trans hcompress)
  case outlined =>
    intro format compressor language outline htext hidentify hcompress
    have hmade := (outlinerOf_of_ok hidentify).trans hcompress
    rw [hentry format _ htext, codeOf_of_ok hmade]
  case plain =>
    intro format htext
    rw [hentry format none htext]
    cases hnumbers : format.lineNumbers <;> cases hfence : format.noFence <;> simp [codeOf, plainCode, hnumbers, hfence]
  case header =>
    intro fs' format format' outliner outliner' entry entry' hpaths h h'
    rw [eq_ofCode_of_ofFile h, eq_ofCode_of_ofFile h']
    exact ⟨congrArg (shownPath path rel base) hpaths, rfl⟩

/-- A note and nothing else. -/
def oneNote (bytes : ByteArray) : FileSystem where
  items := [(["a.md"], .file bytes)]
  cwd := []

theorem place_oneNote (bytes : ByteArray) : (oneNote bytes).place ⟨"a.md"⟩ = some ⟨["a.md"], some (.file bytes)⟩ := by
  have hcomps : Path.components ⟨"a.md"⟩ = [.name "a.md"] := by decide
  have hdir : FileSystem.demandsDir ⟨"a.md"⟩ = false := by decide
  have hcwd : (oneNote bytes).cwd = [] := rfl
  have hlookup : (oneNote bytes).lookup ["a.md"] = some (.file bytes) := rfl
  simp [FileSystem.place, hcomps, hdir, hcwd, FileSystem.follow, hlookup]

theorem identify_note : Language.identify ⟨"a.md"⟩ = .error (.unsupportedExtension ".md") := by rfl

theorem note_falls_back :
    let fs := oneNote "# a".toUTF8
    fs.place ⟨"a.md"⟩ = some ⟨["a.md"], some (.file "# a".toUTF8)⟩ ∧ fs.opens ["a.md"] = true ∧
      FallsBack fs ⟨"a.md"⟩ ⟨"a.md"⟩ ⟨"w"⟩ "# a".toUTF8 ∧
      ∀ format, ofFile fs ⟨"a.md"⟩ ⟨"a.md"⟩ ⟨"w"⟩ format (some compressPath) =
        ofFile fs ⟨"a.md"⟩ ⟨"a.md"⟩ ⟨"w"⟩ format none := by
  have hfalls : FallsBack (oneNote "# a".toUTF8) ⟨"a.md"⟩ ⟨"a.md"⟩ ⟨"w"⟩ "# a".toUTF8 :=
    readable_file_falls_back (place_oneNote _) rfl ⟨"a.md"⟩ ⟨"w"⟩
  refine ⟨place_oneNote _, rfl, hfalls, fun format => ?_⟩
  rw [compressPath_eq]
  exact hfalls.unidentified format compress _ identify_note

end FileEntry

end PromptPack
