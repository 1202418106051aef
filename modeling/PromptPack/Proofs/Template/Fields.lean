import Mathlib
import PromptPack.Template.Parse
/-!
# Tags that name a field

Reading a tag with the name of a field gives the reference to that field, whatever follows the tag: where the field
is inserted (`tag?_value`), where it is what a block is about (`tag?_opening`). The tag that closes a block gives
back the name of the block (`tag?_closing`).
-/

namespace PromptPack.Template

/-! ## Names and what follows them -/

/-- A name that means a field: no number, and no word with a meaning of its own. -/
structure IsField (name : List Char) : Prop where
  letter : name.head?.any Char.isAlpha = true
  symbols : ∀ c ∈ name, isSymbol c = true
  notWord : String.ofList name ∉ ["this", "as", "else", "null", "true", "false"]

/-- No name goes on here, and no steps follow one that ended. -/
def StopsName (cs : List Char) : Prop := ∀ c ∈ cs.head?, isSymbol c = false ∧ isStepMark c = false

theorem stopsName_cons {c : Char} (cs : List Char) (hsymbol : isSymbol c = false) (hmark : isStepMark c = false) :
    StopsName (c :: cs) := by
  rintro d ⟨⟩
  exact ⟨hsymbol, hmark⟩

variable {name after : List Char}

theorem StopsName.endsName (h : StopsName after) : endsName after = true := by
  cases after with
  | nil => rfl
  | cons c cs => simp [Template.endsName, (h c rfl).1]

theorem takeWhile_symbols (hname : ∀ c ∈ name, isSymbol c = true) (hafter : endsName after = true) :
    (name ++ after).takeWhile isSymbol = name := by
  rw [List.takeWhile_append_of_pos hname]
  cases after with
  | nil => simp
  | cons c cs =>
    simp only [endsName, List.head?_cons, Option.map_some, Option.getD_some, Bool.not_eq_true'] at hafter
    simp [hafter]

theorem IsField.exists_cons (h : IsField name) : ∃ c cs, name = c :: cs ∧ c.isAlpha = true := by
  cases name with
  | nil => simpa using h.letter
  | cons c cs => exact ⟨c, cs, rfl, by simpa using h.letter⟩

theorem IsField.ne_nil (h : IsField name) : name ≠ [] := by
  obtain ⟨c, cs, rfl, -⟩ := h.exists_cons
  exact List.cons_ne_nil c cs

/-- A field begins with a letter. -/
theorem IsField.isAlpha (h : IsField name) {c : Char} {cs : List Char} (heq : name ++ after = c :: cs) : c.isAlpha = true := by
  obtain ⟨d, ds, rfl, hletter⟩ := h.exists_cons
  cases heq
  exact hletter

theorem isStepMark_of_isSymbol {c : Char} (h : isSymbol c = true) : isStepMark c = false := by
  rw [Bool.eq_false_iff]
  intro hmark
  simp only [isStepMark, Bool.or_eq_true, beq_iff_eq] at hmark
  rcases hmark with rfl | rfl <;> cases h

theorem IsField.identifier? (h : IsField name) (hafter : StopsName after) :
    identifier? (name ++ after) = some (String.ofList name, after) := by
  rw [Template.identifier?, takeWhile_symbols h.symbols hafter.endsName]
  simp [h.ne_nil]

theorem before_append (front rest : List Char) : before (front ++ rest) rest = String.ofList front := by
  simp [before]

/-! ## References -/

theorem behindCurrent_of_isField (h : IsField name) (hafter : StopsName after) : behindCurrent (name ++ after) = name ++ after := by
  unfold behindCurrent
  split
  · rename_i heq
    cases h.isAlpha heq
  · rename_i d rest heq
    -- A mark behind the word would end the name, which then were the word itself.
    rw [if_neg]
    intro hmark
    have hsymbol : isSymbol d = false := by
      rw [Bool.eq_false_iff]
      intro hsymbol
      simp [isStepMark_of_isSymbol hsymbol] at hmark
    have hname := takeWhile_symbols h.symbols hafter.endsName
    rw [heq] at hname
    refine h.notWord ?_
    rw [← hname]
    simp [hsymbol, show isSymbol 't' = true from rfl, show isSymbol 'h' = true from rfl, show isSymbol 'i' = true from rfl,
      show isSymbol 's' = true from rfl]
  · rfl

theorem upSteps_of_isField (h : IsField name) : upSteps (name ++ after) = ([], name ++ after) := by
  unfold upSteps
  split
  · rename_i heq
    cases h.isAlpha heq
  · rfl

theorem item?_of_isField (h : IsField name) (hafter : StopsName after) :
    item? (name ++ after) = some ([.name (String.ofList name)], after) := by
  have hthis : (String.ofList name == "this") = false := by
    rw [beq_eq_false_iff_ne]
    exact fun heq => h.notWord (by simp [heq])
  have hne : name.isEmpty = false := List.isEmpty_eq_false_iff.2 h.ne_nil
  unfold item?
  split
  · rename_i heq
    cases h.isAlpha heq
  · dsimp only
    rw [takeWhile_symbols h.symbols hafter.endsName, hne, namedStep, hthis, List.drop_left]
    rfl

theorem items_of_stopsName (hafter : StopsName after) (n : Nat) : items n after = ([], after) := by
  cases n with
  | zero => rfl
  | succ n =>
    cases after with
    | nil => rfl
    | cons c cs => simp [items, (hafter c rfl).2]

theorem behindRoot?_of_isField (h : IsField name) : behindRoot? (name ++ after) = none := by
  obtain ⟨c, cs, rfl, hletter⟩ := h.exists_cons
  have hat : ('@' == c) = false := by
    rw [beq_eq_false_iff_ne]
    rintro rfl
    cases hletter
  simp [behindRoot?, Json.afterWord?, hat]

/-- The name of a field is a reference to the field. -/
theorem IsField.reference? (h : IsField name) (hafter : StopsName after) :
    reference? (name ++ after) = some (⟨false, [.name (String.ofList name)]⟩, after) := by
  unfold Template.reference?
  rw [behindCurrent_of_isField h hafter]
  dsimp only
  rw [behindRoot?_of_isField h]
  dsimp only
  split
  · rename_i heq
    cases h.isAlpha heq
  · rw [upSteps_of_isField h]
    dsimp only
    rw [item?_of_isField h hafter]
    simp [items_of_stopsName hafter]

/-! ## Arguments -/

/-- Where a tag closes there is no argument. -/
theorem argument?_of_brace (n : Nat) (rest : List Char) : argument? n ('\x7d' :: rest) = none := by
  cases n with
  | zero => rfl
  | succ n =>
    have hliteral : behindLiteral? (rest.length + 1 + 1) ('\x7d' :: rest) = none := rfl
    have hreference : reference? ('\x7d' :: rest) = none := rfl
    have hkeyword : seesKeyword ('\x7d' :: rest) = false := rfl
    simp [argument?, hkeyword, hliteral, hreference]

theorem arguments_of_brace {cs rest : List Char} (h : skip cs = '\x7d' :: rest) (n : Nat) :
    arguments n cs = ⟨[], [], cs⟩ := by
  cases n with
  | zero => rfl
  | succ n =>
    have hidentifier : identifier? ('\x7d' :: rest) = none := rfl
    simp [arguments, h, hidentifier, argument?_of_brace]

theorem afterWord?_eq_some_iff {word cs rest : List Char} : Json.afterWord? word cs = some rest ↔ cs = word ++ rest := by
  fun_induction Json.afterWord? word cs with
  | case1 cs => simp
  | case2 w ws c cs hw ih =>
    obtain rfl := beq_iff_eq.1 hw
    simp [ih]
  | case3 w ws c cs hw =>
    refine iff_of_false (by simp) fun h => hw ?_
    rw [List.cons_append] at h
    exact beq_iff_eq.2 (List.cons.inj h).1.symm
  | case4 => simp

theorem behindNumber?_of_isField (h : IsField name) : behindNumber? (name ++ after) = none := by
  obtain ⟨c, cs, rfl, hletter⟩ := h.exists_cons
  have hdigit : c.isDigit = false := by grind [Char.isAlpha, Char.isUpper, Char.isLower, Char.isDigit]
  have hsign : c ≠ '-' := by
    rintro rfl
    cases hletter
  simp [behindNumber?, hsign, Decimal.spanDigits, hdigit, List.span_eq_takeWhile_dropWhile]

/-- The name of a field is no word and no number. -/
theorem behindWord?_of_isField (h : IsField name) (hafter : StopsName after) : behindWord? (name ++ after) = none := by
  unfold behindWord?
  dsimp only
  rw [behindNumber?_of_isField h, Option.or_none, Option.filter_eq_none_iff]
  intro rest hrest hends
  obtain ⟨word, hword, hbehind⟩ := List.exists_of_findSome?_eq_some hrest
  rw [afterWord?_eq_some_iff] at hbehind
  -- Where a word stands in front and no name goes on behind it, the whole name is the word.
  have hsymbols : ∀ c ∈ word.toList, isSymbol c = true := by
    simp only [List.mem_cons, List.not_mem_nil, or_false] at hword
    rcases hword with rfl | rfl | rfl <;> simp [isSymbol]
  have hname := takeWhile_symbols h.symbols hafter.endsName
  rw [hbehind, takeWhile_symbols hsymbols hends] at hname
  refine h.notWord ?_
  rw [← hname, String.ofList_toList]
  simp only [List.mem_cons, List.not_mem_nil, or_false] at hword ⊢
  tauto

theorem behindLiteral?_of_isField (h : IsField name) (hafter : StopsName after) (n : Nat) :
    behindLiteral? n (name ++ after) = none := by
  cases n with
  | zero => rfl
  | succ n =>
    have htext : behindText? (name ++ after) = none := by
      unfold behindText?
      split
      · rename_i heq
        cases h.isAlpha heq
      · rename_i heq
        cases h.isAlpha heq
      · rfl
    unfold behindLiteral?
    split
    · rename_i heq
      cases h.isAlpha heq
    · rename_i heq
      cases h.isAlpha heq
    · rw [htext, behindWord?_of_isField h hafter]
      rfl

theorem seesKeyword_of_isField (h : IsField name) (hafter : StopsName after) : seesKeyword (name ++ after) = false := by
  unfold seesKeyword
  rw [h.identifier? hafter]
  split
  · rename_i heq
    exact absurd (by simp [(Prod.mk.inj (Option.some.inj heq)).1]) h.notWord
  · rename_i heq
    exact absurd (by simp [(Prod.mk.inj (Option.some.inj heq)).1]) h.notWord
  · rfl

theorem argument?_of_isField (h : IsField name) (hafter : StopsName after) (n : Nat) :
    argument? (n + 1) (name ++ after) = some (.ref ⟨false, [.name (String.ofList name)]⟩, after) := by
  unfold argument?
  rw [seesKeyword_of_isField h hafter, behindLiteral?_of_isField h hafter]
  dsimp only
  rw [if_neg (by simp)]
  split
  · rename_i heq
    cases h.isAlpha heq
  · rw [h.reference? hafter]
    rfl

/-! ## Tags -/

/-- The end of a tag, and what follows it. -/
def closeBraces (rest : List Char) : List Char := '\x7d' :: '\x7d' :: rest

theorem close?_closeBraces {cs rest : List Char} (h : skip cs = closeBraces rest) : close? 2 cs = some (false, rest) := by
  unfold close?
  rw [h]
  rfl

theorem IsField.skip (h : IsField name) (after : List Char) : skip (name ++ after) = name ++ after := by
  obtain ⟨c, cs, rfl, hletter⟩ := h.exists_cons
  have hspace : isSpace c = false := by
    rw [Bool.eq_false_iff]
    intro hspace
    simp only [isSpace, Bool.or_eq_true, beq_iff_eq] at hspace
    rcases hspace with ((rfl | rfl) | rfl) | rfl <;> cases hletter
  simp [Template.skip, hspace]

theorem behindElse?_of_isField (h : IsField name) (hafter : StopsName after) : behindElse? (name ++ after) = none := by
  unfold behindElse?
  split
  · rename_i heq
    cases h.isAlpha heq
  · rename_i rest heq
    rw [if_neg]
    intro hends
    have hname := takeWhile_symbols h.symbols hafter.endsName
    have hword : ("else".toList ++ rest).takeWhile isSymbol = "else".toList :=
      takeWhile_symbols (by simp [isSymbol]) hends
    rw [heq, show 'e' :: 'l' :: 's' :: 'e' :: rest = "else".toList ++ rest from rfl, hword] at hname
    exact h.notWord (by simp [← hname])
  · rfl

/-- A field by itself is a value. -/
theorem valueTag?_of_isField (h : IsField name) (hafter : StopsName after) {rest : List Char} (hskip : skip after = '\x7d' :: rest) :
    valueTag? (name ++ after) =
      some (.value ⟨false, [.name (String.ofList name)]⟩ ⟨String.ofList name, [], [], []⟩, after) := by
  have hplain : plainValue? (name ++ after) =
      some (.value ⟨false, [.name (String.ofList name)]⟩ ⟨String.ofList name, [], [], []⟩, after) := by
    unfold plainValue?
    split
    · rename_i heq
      cases h.isAlpha heq
    · simp [h.reference? hafter, before_append]
  unfold valueTag?
  simp [h.identifier? hafter, arguments_of_brace hskip, hplain]

theorem inside?_of_isField (h : IsField name) (hafter : StopsName after) {rest : List Char} (hskip : skip after = '\x7d' :: rest) :
    inside? (name ++ after) =
      some (.value ⟨false, [.name (String.ofList name)]⟩ ⟨String.ofList name, [], [], []⟩, after) := by
  unfold inside?
  split
  case h_6 =>
    rw [behindElse?_of_isField h hafter, valueTag?_of_isField h hafter hskip]
  all_goals
    rename_i heq
    cases h.isAlpha heq

theorem IsField.head?_ne (h : IsField name) {c : Char} (hc : c.isAlpha = false) : (name ++ after).head? ≠ some c := by
  intro heq
  obtain ⟨cs, hcs⟩ := List.head?_eq_some_iff.1 heq
  rw [h.isAlpha hcs] at hc
  cases hc

/-- A tag without marks is read by what stands in its braces. -/
theorem tag?_of_inside? {body inner behind rest : List Char} {t : Tag} (hcomment : body.head? ≠ some '!')
    (hskip : skip body = inner) (hmark : inner.head? ≠ some '~') (hbrace : inner.head? ≠ some '\x7b')
    (hinside : inside? inner = some (t, behind)) (hclose : skip behind = closeBraces rest) :
    tag? ('\x7b' :: '\x7b' :: body) = some ⟨t, false, false, rest⟩ := by
  have hopen : Json.afterWord? ['\x7b', '\x7b'] ('\x7b' :: '\x7b' :: body) = some body := rfl
  unfold tag?
  rw [hopen, Option.bind_eq_bind, Option.bind_some]
  split
  · exact absurd rfl hcomment
  · rw [hskip]
    have hmark (rest : List Char) : inner ≠ '~' :: rest := fun heq => hmark (by rw [heq]; rfl)
    have hbrace (rest : List Char) : inner ≠ '\x7b' :: rest := fun heq => hbrace (by rw [heq]; rfl)
    simp [hinside, close?_closeBraces hclose]

/-- The tag that inserts a field, with spaces on both sides of the name. -/
def fieldTag (pad name : List Char) : List Char := "\x7b\x7b".toList ++ pad ++ name ++ pad ++ "\x7d\x7d".toList

/-- The tag that opens a block about a field. -/
def openingTag (helper name : List Char) : List Char := "\x7b\x7b#".toList ++ helper ++ " ".toList ++ name ++ "\x7d\x7d".toList

/-- The tag that closes a block. -/
def closingTag (helper : List Char) : List Char := "\x7b\x7b/".toList ++ helper ++ "\x7d\x7d".toList

-- The equations that Lean makes for these definitions evaluate the literals, which takes seconds.
theorem fieldTag_eq (pad name : List Char) :
    fieldTag pad name = "\x7b\x7b".toList ++ pad ++ name ++ pad ++ "\x7d\x7d".toList := rfl

theorem openingTag_eq (helper name : List Char) :
    openingTag helper name = "\x7b\x7b#".toList ++ helper ++ " ".toList ++ name ++ "\x7d\x7d".toList := rfl

theorem closingTag_eq (helper : List Char) :
    closingTag helper = "\x7b\x7b/".toList ++ helper ++ "\x7d\x7d".toList := rfl

theorem stopsName_pad {pad : List Char} (hpad : ∀ c ∈ pad, isSpace c = true) (rest : List Char) :
    StopsName (pad ++ closeBraces rest) := by
  cases pad with
  | nil => exact stopsName_cons _ rfl rfl
  | cons c cs =>
    have hspace := hpad c List.mem_cons_self
    simp only [isSpace, Bool.or_eq_true, beq_iff_eq] at hspace
    rcases hspace with ((rfl | rfl) | rfl) | rfl <;> exact stopsName_cons _ rfl rfl

theorem tag?_fieldTag (h : IsField name) {pad : List Char} (hpad : ∀ c ∈ pad, isSpace c = true) (rest : List Char) :
    tag? (fieldTag pad name ++ rest) =
      some ⟨.value ⟨false, [.name (String.ofList name)]⟩ ⟨String.ofList name, [], [], []⟩, false, false, rest⟩ := by
  have hclose : skip (pad ++ closeBraces rest) = closeBraces rest := by
    rw [skip, List.dropWhile_append_of_pos hpad]
    rfl
  have hname : skip (pad ++ (name ++ (pad ++ closeBraces rest))) = name ++ (pad ++ closeBraces rest) := by
    rw [skip, List.dropWhile_append_of_pos hpad]
    exact h.skip _
  have hbody : fieldTag pad name ++ rest = '\x7b' :: '\x7b' :: (pad ++ (name ++ (pad ++ closeBraces rest))) := by
    simp [fieldTag_eq, closeBraces]
  rw [hbody]
  refine tag?_of_inside? ?_ hname ?_ ?_ (inside?_of_isField h (stopsName_pad hpad rest) hclose) hclose
  · cases pad with
    | nil => exact h.head?_ne rfl
    | cons c cs =>
      rintro ⟨⟩
      cases hpad '!' List.mem_cons_self
  · exact h.head?_ne rfl
  · exact h.head?_ne rfl

theorem applied?_of_isField {helper : List Char} (hhelper : IsField helper) (h : IsField name) (rest : List Char) :
    applied? (helper ++ (' ' :: (name ++ closeBraces rest))) =
      some (⟨String.ofList helper, [.ref ⟨false, [.name (String.ofList name)]⟩], [], []⟩, closeBraces rest) := by
  have hspace (cs : List Char) : StopsName (' ' :: cs) := stopsName_cons cs rfl rfl
  have hstop : StopsName (closeBraces rest) := stopsName_cons _ rfl rfl
  have hskip : skip (' ' :: (name ++ closeBraces rest)) = name ++ closeBraces rest := h.skip _
  have hend : skip (closeBraces rest) = closeBraces rest := rfl
  have hnames : blockNames? (closeBraces rest) = none := rfl
  have hargs (n : Nat) : arguments (n + 1 + 1) (' ' :: (name ++ closeBraces rest)) =
      ⟨[.ref ⟨false, [.name (String.ofList name)]⟩], [], closeBraces rest⟩ := by
    unfold arguments
    simp [hskip, h.identifier? hstop, argument?_of_isField h hstop, arguments_of_brace hend]
    rfl
  rw [applied?, hhelper.identifier? (hspace _), Option.map_some]
  simp [call?, hargs, hnames]

/-- A block about a field is opened with the field as its argument. -/
theorem tag?_openingTag {helper : List Char} (hhelper : IsField helper) (h : IsField name) (rest : List Char) :
    tag? (openingTag helper name ++ rest) =
      some ⟨.opening ⟨String.ofList helper, [.ref ⟨false, [.name (String.ofList name)]⟩], [], []⟩, false, false, rest⟩ := by
  have hbody : openingTag helper name ++ rest =
      '\x7b' :: '\x7b' :: '#' :: (helper ++ (' ' :: (name ++ closeBraces rest))) := by
    simp [openingTag_eq, closeBraces]
  have hskip (cs : List Char) : skip ('#' :: cs) = '#' :: cs := rfl
  have hclose : skip (closeBraces rest) = closeBraces rest := rfl
  rw [hbody]
  refine tag?_of_inside? (by simp) (hskip _) (by simp) (by simp) ?_ hclose
  rw [inside?, hhelper.skip]
  unfold openingTag?
  split
  · rename_i heq
    cases hhelper.isAlpha heq
  · rename_i heq
    cases hhelper.isAlpha heq
  · rw [applied?_of_isField hhelper h]
    rfl

/-- The tag that closes a block has the name of the block. -/
theorem tag?_closingTag {helper : List Char} (hhelper : IsField helper) (rest : List Char) :
    tag? (closingTag helper ++ rest) = some ⟨.closing (String.ofList helper), false, false, rest⟩ := by
  have hbody : closingTag helper ++ rest = '\x7b' :: '\x7b' :: '/' :: (helper ++ closeBraces rest) := by
    simp [closingTag_eq, closeBraces]
  have hskip (cs : List Char) : skip ('/' :: cs) = '/' :: cs := rfl
  have hclose : skip (closeBraces rest) = closeBraces rest := rfl
  have hname : behindPartWord? (helper ++ closeBraces rest) = some (closeBraces rest) := by
    unfold behindPartWord?
    split
    · rename_i heq
      cases hhelper.isAlpha heq
    · rename_i heq
      cases hhelper.isAlpha heq
    · have hdrop : (helper ++ closeBraces rest).dropWhile (fun c => isSymbol c || isStepMark c) = closeBraces rest := by
        rw [List.dropWhile_append_of_pos fun c hc => by simp [hhelper.symbols c hc]]
        rfl
      dsimp only
      rw [hdrop, if_neg]
      simpa using hhelper.ne_nil
  rw [hbody]
  refine tag?_of_inside? (by simp) (hskip _) (by simp) (by simp) ?_ hclose
  simp [inside?, hhelper.skip, partName?, hname, before_append]

end PromptPack.Template
