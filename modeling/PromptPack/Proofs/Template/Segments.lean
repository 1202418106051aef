import Mathlib
import PromptPack.Proofs.Template.Fields
/-!
# Cutting a template into pieces

A template that is written as texts and tags one after the other is cut into these texts and tags again
(`pieces?_written`). The tags may be those that name a field or close a block.
-/

namespace PromptPack.Template

/-- A part of a template as it is written. -/
inductive Segment
  | text (cs : List Char)
  | tag (written : List Char) (t : Tag)

/-- The text of a template made of segments. -/
def written : List Segment → List Char
  | [] => []
  | .text cs :: ss => cs ++ written ss
  | .tag w _ :: ss => w ++ written ss

theorem written_append (ss ts : List Segment) : written (ss ++ ts) = written ss ++ written ts := by
  induction ss with
  | nil => rfl
  | cons s ss ih => cases s <;> simp [written, ih]

/-- A segment is read back: a text begins no tag and hides none, and a tag is read as what it is, whatever
follows. -/
def Segment.ReadsBack : Segment → Prop
  | .text cs => ∀ c ∈ cs, c ≠ '\x7b' ∧ c ≠ '\\'
  | .tag w t => (∃ c cs, w = '\x7b' :: '\x7b' :: c :: cs ∧ c ≠ '\x7b') ∧
      ∀ rest, tag? (w ++ rest) = some ⟨t, false, false, rest⟩

/-- The pieces of a template made of segments, for what has been seen of the line. -/
def piecesOf (line : Line) : List Segment → List Piece
  | [] => []
  | .text cs :: ss => cs.foldr consChar (piecesOf (cs.foldl Line.push line) ss)
  | .tag _ t :: ss =>
    .tag t false false (line.blank && lineEnds (written ss)) line.spaces :: piecesOf ⟨false, []⟩ ss

theorem pieces?_cons {c : Char} (h : c ≠ '\x7b' ∧ c ≠ '\\') (n : Nat) (line : Line) (rest : List Char) :
    pieces? (n + 1) line (c :: rest) = (pieces? n (line.push c) rest).map (consChar c) := by
  obtain ⟨hbrace, hslash⟩ := h
  have hescaped : escaped? (c :: rest) = none := by
    unfold escaped?
    split
    · rename_i heq
      cases heq
      exact absurd rfl hslash
    · rename_i heq
      cases heq
      exact absurd rfl hslash
    · rename_i heq
      cases heq
      exact absurd rfl hslash
    · rfl
  conv =>
    lhs
    unfold pieces?
  rw [hescaped]
  dsimp only
  -- Only a brace opens a tag, so the character is a piece of text.
  split
  · rename_i heq
    cases heq
  · rename_i heq
    cases heq
    exact absurd rfl hbrace
  · rename_i heq
    cases heq
    exact absurd rfl hbrace
  · rename_i heq
    cases heq
    rfl

theorem pieces?_text {cs : List Char} (h : ∀ c ∈ cs, c ≠ '\x7b' ∧ c ≠ '\\') (n : Nat) (line : Line) (rest : List Char) :
    pieces? (n + cs.length) line (cs ++ rest) = (pieces? n (cs.foldl Line.push line) rest).map (cs.foldr consChar) := by
  induction cs generalizing line with
  | nil => simp
  | cons c cs ih =>
    rw [List.length_cons, ← Nat.add_assoc, List.cons_append, pieces?_cons (h c (by simp)), ih fun d hd => h d (by simp [hd]),
      Option.map_map]
    rfl

theorem pieces?_tag {w cs rest : List Char} {c : Char} {t : TagRead} (hw : w = '\x7b' :: '\x7b' :: c :: cs)
    (hc : c ≠ '\x7b') (htag : tag? (w ++ rest) = some t) (n : Nat) (line : Line) :
    pieces? (n + 1) line (w ++ rest) = (pieces? n ⟨false, []⟩ t.rest).map (tagPiece t line :: ·) := by
  subst hw
  simp only [List.cons_append] at htag ⊢
  have hescaped : escaped? ('\x7b' :: '\x7b' :: c :: (cs ++ rest)) = none := rfl
  conv =>
    lhs
    unfold pieces?
  rw [hescaped]
  dsimp only
  split
  · rename_i heq
    cases heq
  · rename_i heq
    simp only [List.cons.injEq, true_and] at heq
    exact absurd heq.1 hc
  · rw [htag, Option.bind_eq_bind, Option.bind_some]
    cases pieces? n ⟨false, []⟩ t.rest <;> rfl
  · rename_i hfour htwo heq
    cases heq
    exact absurd rfl (htwo _ rfl)

/-- A template made of segments that are read back is cut into these segments. -/
theorem pieces?_written {ss : List Segment} (h : ∀ s ∈ ss, s.ReadsBack) (line : Line) {n : Nat}
    (hn : (written ss).length < n) : pieces? n line (written ss) = some (piecesOf line ss) := by
  induction ss generalizing line n with
  | nil =>
    obtain ⟨n, rfl⟩ := Nat.exists_eq_succ_of_ne_zero (Nat.ne_of_gt hn)
    rfl
  | cons s ss ih =>
    have hss : ∀ s ∈ ss, s.ReadsBack := fun s hs => h s (by simp [hs])
    have hs := h s (by simp)
    cases s with
    | text cs =>
      rw [written, List.length_append] at hn
      obtain ⟨m, rfl⟩ := Nat.exists_eq_add_of_le' (Nat.le_of_lt (by omega : cs.length < n))
      rw [written, pieces?_text hs, ih hss _ (by omega)]
      rfl
    | tag w t =>
      obtain ⟨⟨c, cs, hw, hc⟩, htag⟩ := hs
      rw [written, List.length_append] at hn
      obtain ⟨m, rfl⟩ := Nat.exists_eq_succ_of_ne_zero (Nat.ne_of_gt (by omega : 0 < n))
      have hlength : 0 < w.length := by simp [hw]
      rw [written, pieces?_tag hw hc (htag _), ih hss _ (by omega)]
      rfl

/-! ## Texts and tags with a field -/

def textSegment (s : String) : Segment := .text s.toList

def fieldSegment (pad name : String) : Segment :=
  .tag (fieldTag pad.toList name.toList) (.value ⟨false, [.name name]⟩ ⟨name, [], [], []⟩)

def openingSegment (helper name : String) : Segment :=
  .tag (openingTag helper.toList name.toList) (.opening ⟨helper, [.ref ⟨false, [.name name]⟩], [], []⟩)

def closingSegment (helper : String) : Segment := .tag (closingTag helper.toList) (.closing helper)

variable {pad name helper : String}

theorem readsBack_fieldSegment (hname : IsField name.toList) (hpad : ∀ c ∈ pad.toList, isSpace c = true) :
    (fieldSegment pad name).ReadsBack := by
  refine ⟨?_, fun rest => ?_⟩
  · cases hcs : pad.toList with
    | nil =>
      obtain ⟨c, cs, hname, hletter⟩ := hname.exists_cons
      refine ⟨c, cs ++ "\x7d\x7d".toList, by simp [fieldTag_eq, hname], ?_⟩
      rintro rfl
      cases hletter
    | cons c cs =>
      refine ⟨c, cs ++ name.toList ++ (c :: cs) ++ "\x7d\x7d".toList, by simp [fieldTag_eq], ?_⟩
      rintro rfl
      cases hpad '\x7b' (by simp [hcs])
  · simpa using tag?_fieldTag hname hpad rest

theorem readsBack_openingSegment (hhelper : IsField helper.toList) (hname : IsField name.toList) :
    (openingSegment helper name).ReadsBack :=
  ⟨⟨'#', helper.toList ++ ' ' :: name.toList ++ "\x7d\x7d".toList, by simp [openingTag_eq], by decide⟩,
    fun rest => by simpa using tag?_openingTag hhelper hname rest⟩

theorem readsBack_closingSegment (hhelper : IsField helper.toList) : (closingSegment helper).ReadsBack :=
  ⟨⟨'/', helper.toList ++ "\x7d\x7d".toList, by simp [closingTag_eq], by decide⟩,
    fun rest => by simpa using tag?_closingTag hhelper rest⟩

/-! ## Spelling -/

/-- The text is the one that the segments write. -/
def Spells (s : String) (ss : List Segment) : Prop := s.toList = written ss

variable {s t inside : String} {ss ts : List Segment}

theorem Spells.append (hs : Spells s ss) (ht : Spells t ts) : Spells (s ++ t) (ss ++ ts) := by
  rw [Spells, String.toList_append, hs, ht, written_append]

theorem spells_text (s : String) : Spells s [textSegment s] := by
  simp [Spells, written, textSegment]

theorem spells_field (h : inside = pad ++ name ++ pad) :
    Spells ("\x7b\x7b" ++ inside ++ "\x7d\x7d") [fieldSegment pad name] := by
  subst h
  simp only [Spells, fieldSegment, fieldTag_eq, written, String.toList_append, List.append_assoc, List.append_nil]

theorem spells_opening (h : inside = "#" ++ helper ++ " " ++ name) :
    Spells ("\x7b\x7b" ++ inside ++ "\x7d\x7d") [openingSegment helper name] := by
  subst h
  have hmark : "\x7b\x7b#".toList = "\x7b\x7b".toList ++ "#".toList := by decide +kernel
  simp only [Spells, openingSegment, openingTag_eq, hmark, written, String.toList_append, List.append_assoc, List.append_nil]

theorem spells_closing (h : inside = "/" ++ helper) :
    Spells ("\x7b\x7b" ++ inside ++ "\x7d\x7d") [closingSegment helper] := by
  subst h
  have hmark : "\x7b\x7b/".toList = "\x7b\x7b".toList ++ "/".toList := by decide +kernel
  simp only [Spells, closingSegment, closingTag_eq, hmark, written, String.toList_append, List.append_assoc, List.append_nil]

/-- A template that segments spell is read as the nodes of their pieces. -/
theorem Spells.parse?_eq {source : String} (h : Spells source ss) (hss : ∀ s ∈ ss, s.ReadsBack) {nodes : List Node}
    {rest : List Piece}
    (hnodes : nodes? (3 * (piecesOf {} ss).length + 3) (trimmed none (piecesOf {} ss)) = some (nodes, .nothing, rest)) :
    parse? source = some nodes := by
  rw [parse?, h, pieces?_written hss {} (Nat.lt_succ_self _)]
  simp [hnodes]

end PromptPack.Template
