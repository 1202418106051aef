import PromptPack.Proofs.Syntax.C.Grammar
/-!
# Reading a declaration

The reader of declarations crosses the specifiers and the declarators of the grammar and stops at the semicolon
(`Declaration.reads`).
-/

namespace PromptPack.Syntax.C

variable {t u : Tree} {ts rest : List Tree} {s : Seen} {words : List String} {w : String} {n : Nat}

/-! ## What a tree is not -/

theorem exists_leaf_of_isOneOf (h : isOneOf words t = true) :
    ∃ token, t = .leaf token ∧ token.kind = .word ∧ token.text ∈ words := by
  cases t with
  | group => cases h
  | leaf token =>
    simp only [isOneOf, Bool.and_eq_true, beq_iff_eq, List.contains_iff_mem] at h
    exact ⟨token, rfl, h⟩

theorem isWord_of_isOneOf (h : isOneOf words t = true) : t.isWord = true := by
  obtain ⟨token, rfl, hkind, -⟩ := exists_leaf_of_isOneOf h
  rw [Tree.isWord, hkind]
  rfl

/-- One of the words is no other word. -/
theorem is_eq_false_of_isOneOf (h : isOneOf words t = true) (hw : w ∉ words) : t.is w = false := by
  obtain ⟨token, rfl, -, hmem⟩ := exists_leaf_of_isOneOf h
  rw [Tree.is, Token.is, Bool.and_eq_false_iff, beq_eq_false_iff_ne]
  exact .inr fun heq => hw (heq ▸ hmem)

/-- A name is no word that means something else, and no mark. -/
theorem is_eq_false_of_isName (h : isName t = true)
    (hw : reserved.contains w = true ∨ w.toList.all Text.isWord = false) : t.is w = false := by
  cases t with
  | group => cases h
  | leaf token =>
    simp only [isName, Bool.and_eq_true, Bool.not_eq_true'] at h
    rw [Tree.is, Token.is, Bool.and_eq_false_iff, beq_eq_false_iff_ne]
    refine .inr fun heq => ?_
    subst heq
    rcases hw with hw | hw
    · rw [h.2] at hw
      cases hw
    · rw [h.1.2] at hw
      cases hw

theorem isWord_of_isName (h : isName t = true) : t.isWord = true := by
  cases t with
  | group => cases h
  | leaf token =>
    simp only [isName, Bool.and_eq_true] at h
    exact h.1.1

/-! ## One step -/

/-- The tree means nothing of its own to the reader in this state. -/
structure Passed (s : Seen) (t : Tree) : Prop where
  directive : isDirectiveTree t = false
  mark : ∀ m ∈ [";", "\x7d", "\x7b", "=", "try"], t.is m = false
  arrow : (t.is "->" && s.params) = false
  comma : (t.is "," && s.params && !s.initializes && !s.returns) = false
  colon : (t.is ":" && s.params) = false
  key : isTypeWord t = false
  parenthesis : t.opensWith "(" = false
  block : t.opensWith "\x7b" = true → s.assigns = true
  plain : plainTypes.any t.is = true → s.params = false ∧ s.assigns = false ∧ s.behind (·.opensWith "\x7b") = false
  word : t.isWord = true → trailingWords.any t.is = true ∨ s.params = false ∨ s.assigns = true

theorem Passed.reads (h : Passed s t) (n : Nat) (ts : List Tree) :
    declaration (n + 1) s (t :: ts) = declaration n (s.next t) ts := by
  have hmark := h.mark
  simp only [List.forall_mem_cons, List.not_mem_nil, false_implies, implies_true, and_true] at hmark
  obtain ⟨hsemicolon, hclose, hopen, hassign, htry⟩ := hmark
  have hline : (t.fresh && plainTypes.any t.is && (s.assigns || s.behind (·.opensWith "\x7b"))) = false := by
    cases hplain : plainTypes.any t.is with
    | false => simp
    | true => simp [h.plain hplain]
  have hsecond : (plainTypes.any t.is && s.params && s.count == 2) = false := by
    cases hplain : plainTypes.any t.is with
    | false => rfl
    | true => simp [h.plain hplain]
  have hword : (t.isWord && !trailingWords.any t.is && s.params && !s.assigns && !s.initializes &&
      decide (2 < s.count) && s.behind (·.opensWith "(")) = false := by
    cases hword : t.isWord with
    | false => simp
    | true => rcases h.word hword with h | h | h <;> simp [h]
  have hbody : (t.opensWith "\x7b" && s.params && !s.assigns &&
      !(s.initializes && s.behind fun b => b.isWord || b.is ">")) = false := by
    cases hblock : t.opensWith "\x7b" with
    | false => rfl
    | true => simp [h.block hblock]
  have hmembers : (t.opensWith "\x7b" && !s.params && !s.assigns && decide (1 < s.count) && s.behind Tree.isWord &&
      t.items.any (·.is ";")) = false := by
    cases hblock : t.opensWith "\x7b" with
    | false => rfl
    | true => simp [h.block hblock]
  rw [declaration]
  simp only [h.directive, hsemicolon, hclose, hopen, hassign, h.arrow, h.comma, h.colon, htry, hline, hsecond, hword,
    hbody, hmembers, h.key, h.parenthesis, Bool.false_and, Bool.false_eq_true, if_false]

theorem reads_parenthesis (h : t.opensWith "(" = true) (s : Seen) (n : Nat) (ts : List Tree) :
    declaration (n + 1) s (t :: ts) = declaration n { s.next t with params := s.params || s.behind fun b =>
      !(attributeWords.any b.is || b.is "=" || b.opensWith "[" || b.opensWith "\x7b") } ts := by
  cases t with
  | leaf => cases h
  | group o items c =>
    rw [declaration]
    simp only [isDirectiveTree, Tree.is, Tree.isWord, isTypeWord, plainTypes, List.any_cons, List.any_nil, h,
      Bool.or_false, Bool.and_false, Bool.false_and, Bool.false_eq_true, if_false, if_true]

/-! ## Where the reader stands -/

/-- In a value, or in front of the parameters. -/
def Seen.AtDeclarator (s : Seen) : Prop :=
  s.assigns = true ∨ (s.params = false ∧ s.initializes = false ∧ s.returns = false)

/-- In a value, or in front of all that stands between parameters and a body. -/
def Seen.Calm (s : Seen) : Prop := s.assigns = true ∨ (s.initializes = false ∧ s.returns = false)

/-- Behind a declarator, where an equals sign begins a value. -/
def Seen.BehindName (s : Seen) : Prop := s.Calm ∧ s.behind (·.is "operator") = false

/-- From a state of the one kind the reader crosses the trees, whatever follows them, and then is in a state of the
other. -/
def Crosses (P : Seen → Prop) (trees : List Tree) (Q : Seen → Prop) : Prop :=
  ∀ s, P s → ∃ s', Q s' ∧ ∃ k ≤ trees.length, ∀ n rest, declaration (n + k) s (trees ++ rest) = declaration n s' rest

variable {P Q R : Seen → Prop} {front back : List Tree}

theorem Crosses.nil (h : ∀ s, P s → Q s) : Crosses P [] Q := fun s hs => ⟨s, h s hs, 0, Nat.le_refl 0, fun _ _ => rfl⟩

theorem Crosses.append (hfront : Crosses P front Q) (hback : Crosses Q back R) : Crosses P (front ++ back) R := by
  intro s hs
  obtain ⟨s₁, hs₁, k₁, hk₁, hreads₁⟩ := hfront s hs
  obtain ⟨s₂, hs₂, k₂, hk₂, hreads₂⟩ := hback s₁ hs₁
  refine ⟨s₂, hs₂, k₂ + k₁, by rw [List.length_append]; omega, fun n rest => ?_⟩
  rw [List.append_assoc, ← Nat.add_assoc, hreads₁, hreads₂]

theorem Crosses.cons (hfirst : Crosses P [t] Q) (hback : Crosses Q ts R) : Crosses P (t :: ts) R := hfirst.append hback

theorem Crosses.all (h : ∀ t ∈ ts, Crosses P [t] P) : Crosses P ts P := by
  induction ts with
  | nil => exact .nil fun _ hs => hs
  | cons t ts ih =>
    rw [List.forall_mem_cons] at h
    exact h.1.cons (ih h.2)

theorem Crosses.of_step (h : ∀ s, P s → ∃ s', Q s' ∧ ∀ n rest, declaration (n + 1) s (t :: rest) = declaration n s' rest) :
    Crosses P [t] Q := by
  intro s hs
  obtain ⟨s', hs', hreads⟩ := h s hs
  exact ⟨s', hs', 1, Nat.le_refl 1, hreads⟩

theorem Crosses.of_passed (h : ∀ s, P s → Passed s t) (hnext : ∀ s, P s → Q (s.next t)) : Crosses P [t] Q :=
  .of_step fun s hs => ⟨s.next t, hnext s hs, (h s hs).reads⟩

theorem isDirectiveTree_of_isWord (h : t.isWord = true) : isDirectiveTree t = false := by
  cases t with
  | group => rfl
  | leaf token =>
    rw [Tree.isWord, beq_iff_eq] at h
    rw [isDirectiveTree, isDirective, h]
    rfl

theorem any_is_eq_false (h : ∀ w ∈ words, t.is w = false) : words.any t.is = false := by
  rw [List.any_eq_false]
  intro w hw
  rw [h w hw]
  exact Bool.false_ne_true

theorem not_group_of_is (h : t.is w = true) : isDirectiveTree t = false ∧ ∀ v, t.opensWith v = false := by
  cases t with
  | group => cases h
  | leaf token =>
    refine ⟨?_, fun _ => rfl⟩
    simp only [Tree.is, Token.is, Bool.and_eq_true, Bool.or_eq_true, beq_iff_eq] at h
    rw [isDirectiveTree, isDirective, Bool.and_eq_false_iff, beq_eq_false_iff_ne]
    rcases h.1 with hkind | hkind <;> rw [hkind] <;> exact .inl (by decide)

/-! ## Declarators -/

/-- Words and marks that mean something to the reader wherever they stand, types aside. -/
def meaningful : List String :=
  [";", "\x7d", "\x7b", "=", "try", "->", ",", ":", "struct", "union", "enum", "class"]

/-- The reader passes over a word or mark that means nothing to it. -/
theorem passed_of_leaf (hleaf : isDirectiveTree t = false ∧ ∀ w, t.opensWith w = false)
    (his : ∀ w ∈ meaningful, t.is w = false)
    (hplain : plainTypes.any t.is = true → s.params = false ∧ s.assigns = false ∧ s.behind (·.opensWith "\x7b") = false)
    (hs : trailingWords.any t.is = true ∨ s.params = false ∨ s.assigns = true) : Passed s t where
  directive := hleaf.1
  mark w hw := his w (List.mem_of_mem_take (i := 5) hw)
  arrow := by rw [his _ (by decide)]; rfl
  comma := by rw [his _ (by decide)]; rfl
  colon := by rw [his _ (by decide)]; rfl
  key := by rw [isTypeWord, his _ (by decide), his _ (by decide), his _ (by decide), his _ (by decide)]; rfl
  parenthesis := hleaf.2 _
  block h := by rw [hleaf.2] at h; cases h
  plain := hplain
  word _ := hs

/-- A word that is none of the types is passed over unless a body may stand behind it. -/
theorem passed_of_no_type (hleaf : isDirectiveTree t = false ∧ ∀ w, t.opensWith w = false)
    (his : ∀ w ∈ meaningful ++ plainTypes, t.is w = false)
    (hs : trailingWords.any t.is = true ∨ s.params = false ∨ s.assigns = true) : Passed s t := by
  refine passed_of_leaf hleaf (fun w hw => his w (List.mem_append_left _ hw)) (fun h => ?_) hs
  rw [any_is_eq_false fun w hw => his w (List.mem_append_right _ hw)] at h
  cases h

theorem Seen.AtDeclarator.calm (h : s.AtDeclarator) : s.Calm := h.imp_right And.right

theorem Seen.AtDeclarator.bare (h : s.AtDeclarator) : s.params = false ∨ s.assigns = true := by
  rcases h with h | ⟨h, -⟩
  · exact .inr h
  · exact .inl h

theorem leaf_of_isWord (h : t.isWord = true) : isDirectiveTree t = false ∧ ∀ w, t.opensWith w = false :=
  ⟨isDirectiveTree_of_isWord h, opensWith_of_isWord h⟩

theorem crosses_pointer (h : isPointer t = true) : Crosses Seen.AtDeclarator [t] Seen.AtDeclarator := by
  refine .of_passed (fun s hs => ?_) fun s hs => hs
  rw [isPointer, Bool.or_eq_true] at h
  rcases h with h | h
  · refine passed_of_no_type (not_group_of_is h) (fun w hw => is_eq_false_of_is h ?_) (.inr hs.bare)
    rintro rfl
    revert hw
    decide
  · refine passed_of_no_type (leaf_of_isWord (isWord_of_isOneOf h)) (fun w hw => is_eq_false_of_isOneOf h ?_) (.inr hs.bare)
    revert w
    decide

theorem crosses_parenthesis (h : t.opensWith "(" = true) (hP : ∀ s, P s → s.Calm) : Crosses P [t] Seen.BehindName :=
  .of_step fun s hs => ⟨{ s.next t with params := _ }, ⟨hP s hs, is_eq_false_of_opensWith h _⟩,
    fun n ts => reads_parenthesis h s n ts⟩

theorem passed_of_isName (h : isName t = true) (hs : s.AtDeclarator) : Passed s t := by
  refine passed_of_no_type (leaf_of_isWord (isWord_of_isName h)) (fun w hw => is_eq_false_of_isName h ?_) (.inr hs.bare)
  revert w
  decide

theorem crosses_core (h : isName t = true ∨ t.opensWith "(" = true) : Crosses Seen.AtDeclarator [t] Seen.BehindName := by
  rcases h with h | h
  · exact .of_passed (fun s => passed_of_isName h) fun s hs => ⟨hs.calm, is_eq_false_of_isName h (by decide)⟩
  · exact crosses_parenthesis h fun s hs => hs.calm

theorem crosses_bracket (h : t.opensWith "[" = true) : Crosses Seen.BehindName [t] Seen.BehindName := by
  refine .of_passed (fun s hs => ?_) fun s hs => ⟨hs.1, is_eq_false_of_opensWith h _⟩
  cases t with
  | leaf => cases h
  | group o items c =>
    have ho : o.text = "[" := by simpa [Tree.opensWith] using h
    exact {
      directive := rfl
      mark := fun _ _ => rfl
      arrow := rfl
      comma := rfl
      colon := rfl
      key := rfl
      parenthesis := by rw [Tree.opensWith, ho]; rfl
      block := fun h => by rw [Tree.opensWith, ho] at h; cases h
      plain := fun h => by cases h
      word := fun h => by cases h }

theorem crosses_suffixWord (h : isOneOf suffixWords t = true) : Crosses Seen.BehindName [t] Seen.BehindName := by
  refine .of_passed (fun s hs => ?_) fun s hs => ⟨hs.1, is_eq_false_of_isOneOf h (by decide)⟩
  obtain ⟨token, rfl, hkind, hmem⟩ := exists_leaf_of_isOneOf h
  refine passed_of_no_type (leaf_of_isWord (isWord_of_isOneOf h)) (fun w hw => is_eq_false_of_isOneOf h ?_) (.inl ?_)
  · revert w
    decide
  · refine List.any_eq_true.2 ⟨token.text, ?_, ?_⟩
    · exact (by decide : ∀ w ∈ suffixWords, w ∈ trailingWords) _ hmem
    · rw [Tree.is, Token.is, hkind]
      simp

/-! ## Values -/

theorem crosses_equals (h : t.is "=" = true) : Crosses Seen.BehindName [t] fun s => s.assigns = true := by
  refine .of_step fun s hs => ⟨{ s.next t with assigns := true }, rfl, fun n rest => ?_⟩
  have his {w : String} (hw : "=" ≠ w) : t.is w = false := is_eq_false_of_is h hw
  rw [declaration]
  simp only [(not_group_of_is h).1, his (by decide : "=" ≠ ";"), his (by decide : "=" ≠ "\x7d"),
    his (by decide : "=" ≠ "\x7b"), h, hs.2, Bool.and_false, Bool.false_eq_true, if_false, if_true]

theorem crosses_piece (h : isPiece t = true) : Crosses (fun s => s.assigns = true) [t] fun s => s.assigns = true := by
  simp only [isPiece, Bool.and_eq_true, Bool.not_eq_true', List.any_cons, List.any_nil, Bool.or_eq_false_iff] at h
  obtain ⟨⟨⟨hdirective, hsemicolon, hcomma, hopen, hclose, htry, -⟩, hplain⟩, hkey⟩ := h
  refine .of_step fun s hs => ?_
  -- Some trees set a mark of their own in what has been seen; the others are passed.
  by_cases hequals : t.is "=" = true
  · cases hoperator : s.behind (·.is "operator") with
    | true =>
      refine ⟨s, hs, fun n rest => ?_⟩
      rw [declaration]
      simp only [hdirective, hsemicolon, hclose, hopen, hequals, hoperator, Bool.and_self, Bool.false_eq_true, if_false,
        if_true]
    | false =>
      refine ⟨{ s.next t with assigns := true }, rfl, fun n rest => ?_⟩
      rw [declaration]
      simp only [hdirective, hsemicolon, hclose, hopen, hequals, hoperator, Bool.and_false, Bool.false_eq_true, if_false,
        if_true]
  rw [Bool.not_eq_true] at hequals
  by_cases harrow : (t.is "->" && s.params) = true
  · refine ⟨{ s.next t with returns := true }, hs, fun n rest => ?_⟩
    rw [declaration]
    simp only [hdirective, hsemicolon, hclose, hopen, hequals, harrow, Bool.false_and, Bool.false_eq_true, if_false,
      if_true]
  by_cases hcolon : (t.is ":" && s.params) = true
  · refine ⟨{ s.next t with initializes := true }, hs, fun n rest => ?_⟩
    rw [declaration]
    simp only [hdirective, hsemicolon, hclose, hopen, hequals, hcomma, harrow, hcolon, Bool.false_and, Bool.false_eq_true,
      if_false, if_true]
  by_cases hparenthesis : t.opensWith "(" = true
  · exact ⟨{ s.next t with params := _ }, hs, reads_parenthesis hparenthesis s⟩
  rw [Bool.not_eq_true] at harrow hcolon hparenthesis
  refine ⟨s.next t, hs, Passed.reads ?_⟩
  exact {
    directive := hdirective
    mark := by simp only [List.forall_mem_cons, hsemicolon, hclose, hopen, hequals, htry, List.not_mem_nil, false_implies,
      implies_true, and_self]
    arrow := harrow
    comma := by rw [hcomma]; rfl
    colon := hcolon
    key := hkey
    parenthesis := hparenthesis
    block := fun _ => hs
    plain := fun h => by rw [hplain] at h; cases h
    word := fun _ => .inr (.inr hs) }

/-- Behind a comma the parameters of a declarator are over. -/
theorem crosses_comma (h : t.is "," = true) : Crosses Seen.Calm [t] Seen.AtDeclarator := by
  have his {w : String} (hw : "," ≠ w) : t.is w = false := is_eq_false_of_is h hw
  refine .of_step fun s hs => ?_
  cases hparams : s.params && !s.initializes && !s.returns with
  | true =>
    refine ⟨{ s.next t with assigns := true }, .inl rfl, fun n rest => ?_⟩
    rw [declaration]
    simp only [(not_group_of_is h).1, his (by decide : "," ≠ ";"), his (by decide : "," ≠ "\x7d"),
      his (by decide : "," ≠ "\x7b"), his (by decide : "," ≠ "="), his (by decide : "," ≠ "->"), h, hparams,
      Bool.false_and, Bool.true_and, Bool.false_eq_true, if_false, if_true]
  | false =>
    have hat : s.AtDeclarator := by
      rcases hs with hs | ⟨hinitializes, hreturns⟩
      · exact .inl hs
      · refine .inr ⟨?_, hinitializes, hreturns⟩
        simpa [hinitializes, hreturns] using hparams
    refine ⟨s.next t, hat, Passed.reads ?_⟩
    exact {
      directive := (not_group_of_is h).1
      mark := fun w hw => his (by rintro rfl; revert hw; decide)
      arrow := by rw [his (by decide)]; rfl
      comma := by rw [h]; exact hparams
      colon := by rw [his (by decide)]; rfl
      key := by rw [isTypeWord, his (by decide), his (by decide), his (by decide), his (by decide)]; rfl
      parenthesis := (not_group_of_is h).2 _
      block := fun hblock => by rw [(not_group_of_is h).2] at hblock; cases hblock
      plain := fun hplain => by
        rw [any_is_eq_false fun w hw => his (by rintro rfl; revert hw; decide)] at hplain
        cases hplain
      word := fun _ => .inr hat.bare }

theorem Suffixes.crosses {suffixes : List Tree} (h : Suffixes suffixes) : Crosses Seen.BehindName suffixes Seen.Calm := by
  induction h with
  | nil => exact .nil fun s hs => hs.1
  | group ht _ ih =>
    refine Crosses.cons ?_ ih
    rcases ht with ht | ht
    · exact crosses_parenthesis ht fun s hs => hs.1
    · exact crosses_bracket ht
  | clause hword ht _ ih =>
    exact Crosses.cons (crosses_suffixWord hword) (Crosses.cons (crosses_parenthesis ht fun s hs => hs.1) ih)
  | @value _ t ts hmark hpieces =>
    have hvalue : Crosses (fun s => s.assigns = true) (t :: ts) fun s => s.assigns = true :=
      .all fun u hu => crosses_piece (hpieces u hu)
    have hcalm : Crosses (fun s => s.assigns = true) [] Seen.Calm := .nil fun _ hs => .inl hs
    have hend := hvalue.append hcalm
    rw [List.append_nil] at hend
    exact Crosses.cons (crosses_equals hmark) hend

theorem Declarator.crosses {d : List Tree} (h : Declarator d) : Crosses Seen.AtDeclarator d Seen.Calm := by
  obtain ⟨hpointers, hcore, hsuffixes⟩ := h
  exact (Crosses.all fun t ht => crosses_pointer (hpointers t ht)).append
    (Crosses.cons (crosses_core hcore) hsuffixes.crosses)

theorem Declarators.crosses {ds : List Tree} (h : Declarators ds) : Crosses Seen.AtDeclarator ds Seen.Calm := by
  induction h with
  | one hd => exact hd.crosses
  | more hd hcomma _ ih => exact hd.crosses.append (Crosses.cons (crosses_comma hcomma) ih)

/-! ## Specifiers -/

/-- Nothing but specifiers has been seen, and no block just before. -/
structure Seen.AtWord (s : Seen) : Prop where
  params : s.params = false
  assigns : s.assigns = false
  initializes : s.initializes = false
  returns : s.returns = false
  block : s.behind (·.opensWith "\x7b") = false

theorem Seen.AtWord.atDeclarator (h : s.AtWord) : s.AtDeclarator := .inr ⟨h.params, h.initializes, h.returns⟩

theorem Seen.AtWord.next (h : s.AtWord) (hword : t.isWord = true) : (s.next t).AtWord :=
  { h with block := opensWith_of_isWord hword _ }

theorem crosses_typeWord (h : isOneOf (qualifiers ++ plainTypes) t = true) : Crosses Seen.AtWord [t] Seen.AtWord := by
  refine .of_passed (fun s hs => ?_) fun s hs => hs.next (isWord_of_isOneOf h)
  refine passed_of_leaf (leaf_of_isWord (isWord_of_isOneOf h)) (fun w hw => is_eq_false_of_isOneOf h ?_)
    (fun _ => ⟨hs.params, hs.assigns, hs.block⟩) (.inr (.inl hs.params))
  revert w
  decide

theorem crosses_qualifier (h : isOneOf qualifiers t = true) : Crosses Seen.AtDeclarator [t] Seen.AtDeclarator := by
  refine .of_passed (fun s hs => ?_) fun s hs => hs
  refine passed_of_no_type (leaf_of_isWord (isWord_of_isOneOf h)) (fun w hw => is_eq_false_of_isOneOf h ?_) (.inr hs.bare)
  revert w
  decide

theorem isOneOf_mono {words' : List String} (hsub : words ⊆ words') (h : isOneOf words t = true) :
    isOneOf words' t = true := by
  obtain ⟨token, rfl, hkind, hmem⟩ := exists_leaf_of_isOneOf h
  rw [isOneOf, hkind, List.contains_iff_mem.2 (hsub hmem)]
  rfl

/-- What may stand behind a type. -/
def followsType (t : Tree) : Bool := isOneOf qualifiers t || isPointer t || isName t || t.opensWith "("

theorem is_eq_false_of_followsType (h : followsType t = true) (hw : w ∈ [":", "::", "<", "final"] ++ attributeWords) :
    t.is w = false := by
  simp only [followsType, isPointer, Bool.or_eq_true] at h
  rcases h with ((h | h | h) | h) | h
  · exact is_eq_false_of_isOneOf h (by revert w; decide)
  · exact is_eq_false_of_is h (by revert w; decide)
  · exact is_eq_false_of_isOneOf h (by revert w; decide)
  · exact is_eq_false_of_isName h (by revert w; decide)
  · exact is_eq_false_of_opensWith h w

theorem opensWith_of_followsType (h : followsType t = true) (hw : w ≠ "(") : t.opensWith w = false := by
  simp only [followsType, isPointer, Bool.or_eq_true] at h
  rcases h with ((h | h | h) | h) | h
  · exact opensWith_of_isWord (isWord_of_isOneOf h) w
  · exact (not_group_of_is h).2 w
  · exact opensWith_of_isWord (isWord_of_isOneOf h) w
  · exact opensWith_of_isWord (isWord_of_isName h) w
  · cases t with
    | leaf => rfl
    | group o items c =>
      simp only [Tree.opensWith, beq_iff_eq] at h
      simpa [Tree.opensWith, h] using hw.symm

theorem afterAttributes_cons (hattribute : attributeWords.any t.is = false) (hbracket : t.opensWith "[" = false) :
    afterAttributes (t :: ts) = t :: ts := by
  cases ts with
  | nil => rfl
  | cons u ts =>
    rw [afterAttributes, hattribute, hbracket]
    rfl

theorem is_key (h : isOneOf tagWords t = true) : isTypeWord t = true := by
  obtain ⟨token, rfl, hkind, hmem⟩ := exists_leaf_of_isOneOf h
  simp only [tagWords, List.mem_cons, List.not_mem_nil, or_false] at hmem
  rcases hmem with hmem | hmem | hmem <;> simp [isTypeWord, Tree.is, Token.is, hkind, hmem]

/-- The keyword of a type and its name are followed by what follows the type. -/
theorem behindTypeName_tagged {key name : Tree} (hname : isName name = true)
    (hcolon : u.is "::" = false) (hangle : u.is "<" = false) (hfinal : u.is "final" = false) :
    behindTypeName (key :: name :: u :: ts) = u :: ts := by
  have his {w : String} (hw : reserved.contains w = true ∨ w.toList.all Text.isWord = false) : name.is w = false :=
    is_eq_false_of_isName hname hw
  have hattribute : attributeWords.any name.is = false := any_is_eq_false fun w hw => his (by revert w; decide)
  rw [behindTypeName]
  simp only [his (by decide : reserved.contains "class" = true ∨ _), his (by decide : reserved.contains "struct" = true ∨ _),
    Bool.or_self, Bool.and_false, Bool.false_eq_true, if_false,
    afterAttributes_cons hattribute (opensWith_of_isWord (isWord_of_isName hname) _), List.length_cons, afterName,
    his (by decide : reserved.contains "::" = true ∨ _), isWord_of_isName hname, if_true, afterArguments, hangle, hcolon,
    hfinal]

theorem opensWith_eq_false (h : t.opensWith w = true) {v : String} (hne : w ≠ v) : t.opensWith v = false := by
  cases t with
  | leaf => cases h
  | group o items c =>
    simp only [Tree.opensWith, beq_iff_eq] at h
    simpa [Tree.opensWith, h] using hne

theorem behindTypeName_defined {key body : Tree} {name : Option Tree} (hname : ∀ t ∈ name, isName t = true)
    (hbody : body.opensWith "\x7b" = true) : behindTypeName (key :: (name.toList ++ body :: ts)) = body :: ts := by
  have his (w : String) : body.is w = false := is_eq_false_of_opensWith hbody w
  cases name with
  | some name => exact behindTypeName_tagged (hname name rfl) (his _) (his _) (his _)
  | none =>
    have hword : body.isWord = false := by
      cases body with
      | leaf => cases hbody
      | group => rfl
    rw [Option.toList_none, List.nil_append, behindTypeName]
    simp only [his, Bool.or_self, Bool.and_false, Bool.false_eq_true, if_false,
      afterAttributes_cons (any_is_eq_false fun w _ => his w) (opensWith_eq_false hbody (by decide)), List.length_cons,
      afterName, hword]

theorem typeBody?_tagged {key name : Tree} (hkey : isOneOf tagWords key = true) (hname : isName name = true)
    (hu : followsType u = true) : typeBody? (key :: name :: u :: ts) = none := by
  rw [typeBody?, behindTypeName_tagged hname (is_eq_false_of_followsType hu (by decide))
    (is_eq_false_of_followsType hu (by decide)) (is_eq_false_of_followsType hu (by decide))]
  simp only [List.head?_cons, Option.map_some, is_key hkey, Option.getD_some, Bool.not_true, Bool.false_eq_true, if_false,
    opensWith_of_followsType hu (by decide : "\x7b" ≠ "("), is_eq_false_of_followsType hu (by decide : ":" ∈ _)]

theorem typeBody?_defined {key body : Tree} {name : Option Tree} (hkey : isOneOf tagWords key = true)
    (hname : ∀ t ∈ name, isName t = true) (hbody : body.opensWith "\x7b" = true) :
    typeBody? (key :: (name.toList ++ body :: ts)) = some (body, ts) := by
  rw [typeBody?, behindTypeName_defined hname hbody]
  simp only [List.head?_cons, Option.map_some, is_key hkey, Option.getD_some, Bool.not_true, Bool.false_eq_true, if_false,
    hbody, if_true]

/-- The keyword of a type is crossed with the body of the type. -/
theorem reads_key (hkey : isOneOf tagWords t = true) (hs : s.AtWord) (n : Nat) (ts : List Tree) :
    declaration (n + 1) s (t :: ts) = match typeBody? (t :: ts) with
      | some (b, rest) => declaration n (s.next b) rest
      | none => declaration n (s.next t) ts := by
  have his {w : String} (hw : w ∉ tagWords) : t.is w = false := is_eq_false_of_isOneOf hkey hw
  have hplain : plainTypes.any t.is = false := any_is_eq_false fun w hw => his (by revert w; decide)
  have hword := isWord_of_isOneOf hkey
  rw [declaration]
  cases typeBody? (t :: ts) <;>
    simp only [isDirectiveTree_of_isWord hword, his (by decide : ";" ∉ _), his (by decide : "\x7d" ∉ _),
      his (by decide : "\x7b" ∉ _), his (by decide : "=" ∉ _), his (by decide : "->" ∉ _), his (by decide : "," ∉ _),
      his (by decide : ":" ∉ _), his (by decide : "try" ∉ _), hplain, hs.params, is_key hkey, Bool.false_and,
      Bool.and_false, Bool.not_false, Bool.and_true, Bool.false_eq_true, if_false, if_true]

theorem exists_followsType (hback : ∀ t ∈ back, isOneOf qualifiers t = true) (hu : followsType u = true) (ts : List Tree) :
    ∃ v vs, back ++ u :: ts = v :: vs ∧ followsType v = true := by
  cases back with
  | nil => exact ⟨u, ts, rfl, hu⟩
  | cons v back => exact ⟨v, back ++ u :: ts, rfl, by rw [followsType, hback v List.mem_cons_self]; rfl⟩

theorem crosses_typeWords (h : ∀ t ∈ ts, isOneOf (qualifiers ++ plainTypes) t = true) : Crosses Seen.AtWord ts Seen.AtWord :=
  .all fun t ht => crosses_typeWord (h t ht)

theorem crosses_qualifiers (h : ∀ t ∈ ts, isOneOf qualifiers t = true) : Crosses Seen.AtDeclarator ts Seen.AtDeclarator :=
  .all fun t ht => crosses_qualifier (h t ht)

theorem crosses_name (h : isName t = true) : Crosses Seen.AtDeclarator [t] Seen.AtDeclarator :=
  .of_passed (fun _ => passed_of_isName h) fun _ hs => hs

/-- The reader crosses the specifiers in front of what may follow a type. -/
theorem Specifiers.reads {specifiers : List Tree} (h : Specifiers specifiers) (hu : followsType u = true) (ts : List Tree) :
    ∃ s, s.AtDeclarator ∧ ∃ k ≤ specifiers.length, ∀ n,
      declaration (n + k) {} (specifiers ++ u :: ts) = declaration n s (u :: ts) := by
  have hstart : Seen.AtWord {} := ⟨rfl, rfl, rfl, rfl, rfl⟩
  have hwords {front : List Tree} (h : ∀ t ∈ front, isOneOf qualifiers t = true) : Crosses Seen.AtWord front Seen.AtWord :=
    crosses_typeWords fun t ht => isOneOf_mono (List.subset_append_left _ _) (h t ht)
  cases h with
  | @basic front back word hfront hword hback =>
    have hcross : Crosses Seen.AtWord (front ++ word :: back) Seen.AtWord :=
      (hwords hfront).append ((crosses_typeWord (isOneOf_mono (List.subset_append_right _ _) hword)).cons
        (crosses_typeWords hback))
    obtain ⟨s, hs, k, hk, hreads⟩ := hcross {} hstart
    exact ⟨s, hs.atDeclarator, k, hk, fun n => hreads n _⟩
  | @named front back name hfront hname hback =>
    have hcross : Crosses Seen.AtDeclarator (front ++ name :: back) Seen.AtDeclarator :=
      (crosses_qualifiers hfront).append ((crosses_name hname).cons (crosses_qualifiers hback))
    obtain ⟨s, hs, k, hk, hreads⟩ := hcross {} hstart.atDeclarator
    exact ⟨s, hs, k, hk, fun n => hreads n _⟩
  | @tagged front back key name hfront hkey hname hback =>
    obtain ⟨s₁, hs₁, k₁, hk₁, hreads₁⟩ := hwords hfront {} hstart
    obtain ⟨s₂, hs₂, k₂, hk₂, hreads₂⟩ := ((crosses_name hname).cons (crosses_qualifiers hback)) (s₁.next key)
      (hs₁.next (isWord_of_isOneOf hkey)).atDeclarator
    obtain ⟨v, vs, hbehind, hv⟩ := exists_followsType hback hu ts
    refine ⟨s₂, hs₂, k₂ + 1 + k₁, ?_, fun n => ?_⟩
    · simp only [List.length_append, List.length_cons] at hk₂ ⊢
      omega
    · rw [List.append_assoc, ← Nat.add_assoc, hreads₁, ← Nat.add_assoc, List.cons_append, List.cons_append, hbehind,
        reads_key hkey hs₁, typeBody?_tagged hkey hname hv, ← hbehind, ← List.cons_append]
      exact hreads₂ n _
  | @defined front back key body name hfront hkey hname hbody hback =>
    obtain ⟨s₁, hs₁, k₁, hk₁, hreads₁⟩ := hwords hfront {} hstart
    obtain ⟨s₂, hs₂, k₂, hk₂, hreads₂⟩ := crosses_qualifiers hback (s₁.next body) hs₁.atDeclarator
    refine ⟨s₂, hs₂, k₂ + 1 + k₁, ?_, fun n => ?_⟩
    · simp only [List.length_append, List.length_cons] at hk₂ ⊢
      omega
    · rw [List.append_assoc, ← Nat.add_assoc, hreads₁, ← Nat.add_assoc, List.cons_append, List.append_assoc,
        List.cons_append, reads_key hkey hs₁, typeBody?_defined hkey hname hbody]
      exact hreads₂ n _

theorem Declarators.exists_cons {ds : List Tree} (h : Declarators ds) : ∃ u us, ds = u :: us ∧ followsType u = true := by
  have hdeclarator {d : List Tree} (h : Declarator d) : ∃ u us, d = u :: us ∧ followsType u = true := by
    obtain ⟨hpointers, hcore, -⟩ := h
    rename_i pointers suffixes core
    cases pointers with
    | nil => exact ⟨core, suffixes, rfl, by rw [followsType]; rcases hcore with h | h <;> simp [h]⟩
    | cons u us =>
      exact ⟨u, us ++ core :: suffixes, rfl, by rw [followsType, hpointers u List.mem_cons_self]; simp⟩
  cases h with
  | one h => exact hdeclarator h
  | more h =>
    obtain ⟨u, us, rfl, hu⟩ := hdeclarator h
    exact ⟨u, _, rfl, hu⟩

theorem reads_semicolon (h : t.is ";" = true) (s : Seen) (n : Nat) (ts : List Tree) :
    declaration (n + 1) s (t :: ts) = (.semicolon t.stop, ts) := by
  rw [declaration]
  simp only [(not_group_of_is h).1, h, Bool.false_eq_true, if_false, if_true]

/-- The reader takes a declaration up to its semicolon. -/
theorem reads_declaration {specifiers declarators : List Tree} (hspecifiers : Specifiers specifiers)
    (hdeclarators : Declarators declarators) (hsemicolon : t.is ";" = true) (rest : List Tree) {n : Nat}
    (hn : specifiers.length + declarators.length < n) :
    declaration n {} (specifiers ++ (declarators ++ t :: rest)) = (.semicolon t.stop, rest) := by
  obtain ⟨u, us, hcons, hu⟩ := hdeclarators.exists_cons
  obtain ⟨s₁, hs₁, k₁, hk₁, hreads₁⟩ := hspecifiers.reads hu (us ++ t :: rest)
  obtain ⟨s₂, -, k₂, hk₂, hreads₂⟩ := hdeclarators.crosses s₁ hs₁
  obtain ⟨m, rfl⟩ := Nat.exists_eq_add_of_le (show 1 + k₂ + k₁ ≤ n by omega)
  have hfuel : 1 + k₂ + k₁ + m = m + 1 + k₂ + k₁ := by omega
  rw [hfuel, hcons, List.cons_append, hreads₁, ← List.cons_append, ← hcons, hreads₂, reads_semicolon hsemicolon]

end PromptPack.Syntax.C
