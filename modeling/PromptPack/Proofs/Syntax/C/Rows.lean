import PromptPack.Proofs.Syntax.C.Reading
/-!
# Reading rows

A declaration is found where no conditional is open (`declarationsIn_declaration`), whatever stands behind it.
-/

namespace PromptPack.Syntax.C

open Outline (Hit)

variable {t u : Tree} {ts us rest : List Tree} {words : List String} {w : String} {specifiers declarators : List Tree}
  {m : Nat}

/-! ## What a declaration is made of -/

/-- The tree is no directive, and ends or begins nothing. -/
structure Inner (t : Tree) : Prop where
  directive : isDirectiveTree t = false
  semicolon : t.is ";" = false
  typedef : t.is "typedef" = false

/-- Nor is it the keyword of a type. -/
structure Untyped (t : Tree) : Prop extends Inner t where
  key : isTypeWord t = false

/-- Words and marks that end or begin something. -/
def turning : List String := [";", "typedef", "struct", "union", "enum", "class"]

theorem untyped_of_leaf (hleaf : isDirectiveTree t = false) (his : ∀ w ∈ turning, t.is w = false) : Untyped t where
  directive := hleaf
  semicolon := his _ (by decide)
  typedef := his _ (by decide)
  key := by rw [isTypeWord, his _ (by decide), his _ (by decide), his _ (by decide), his _ (by decide)]; rfl

theorem untyped_of_isOneOf (h : isOneOf words t = true) (hwords : ∀ w ∈ turning, w ∉ words) : Untyped t :=
  untyped_of_leaf (isDirectiveTree_of_isWord (isWord_of_isOneOf h)) fun w hw => is_eq_false_of_isOneOf h (hwords w hw)

theorem untyped_of_is (h : t.is w = true) (hw : w ∉ turning) : Untyped t :=
  untyped_of_leaf (not_group_of_is h).1 fun v hv => is_eq_false_of_is h (by rintro rfl; exact hw hv)

theorem untyped_of_isName (h : isName t = true) : Untyped t :=
  untyped_of_leaf (isDirectiveTree_of_isWord (isWord_of_isName h)) fun w hw =>
    is_eq_false_of_isName h (by revert w; decide)

theorem untyped_of_opensWith (h : t.opensWith w = true) : Untyped t := by
  cases t with
  | leaf => cases h
  | group => exact ⟨⟨rfl, rfl, rfl⟩, rfl⟩

theorem untyped_of_isPiece (h : isPiece t = true) : Untyped t := by
  simp only [isPiece, Bool.and_eq_true, Bool.not_eq_true', List.any_cons, List.any_nil, Bool.or_eq_false_iff] at h
  obtain ⟨⟨⟨hdirective, hsemicolon, -, -, -, -, htypedef, -⟩, -⟩, hkey⟩ := h
  exact ⟨⟨hdirective, hsemicolon, htypedef⟩, hkey⟩

theorem untyped_of_isPointer (h : isPointer t = true) : Untyped t := by
  rw [isPointer, Bool.or_eq_true] at h
  rcases h with h | h
  · exact untyped_of_is h (by decide)
  · exact untyped_of_isOneOf h (by decide)

theorem Suffixes.untyped {suffixes : List Tree} (h : Suffixes suffixes) : ∀ t ∈ suffixes, Untyped t := by
  induction h with
  | nil => nofun
  | group ht _ ih => exact List.forall_mem_cons.2 ⟨ht.elim untyped_of_opensWith untyped_of_opensWith, ih⟩
  | clause hword ht _ ih =>
    exact List.forall_mem_cons.2 ⟨untyped_of_isOneOf hword (by decide), List.forall_mem_cons.2 ⟨untyped_of_opensWith ht, ih⟩⟩
  | value hmark hpieces =>
    exact List.forall_mem_cons.2 ⟨untyped_of_is hmark (by decide), fun u hu => untyped_of_isPiece (hpieces u hu)⟩

theorem Declarator.untyped {d : List Tree} (h : Declarator d) : ∀ t ∈ d, Untyped t := by
  obtain ⟨hpointers, hcore, hsuffixes⟩ := h
  exact List.forall_mem_append.2 ⟨fun t ht => untyped_of_isPointer (hpointers t ht),
    List.forall_mem_cons.2 ⟨hcore.elim untyped_of_isName untyped_of_opensWith, hsuffixes.untyped⟩⟩

theorem Declarators.untyped (h : Declarators declarators) : ∀ t ∈ declarators, Untyped t := by
  induction h with
  | one h => exact h.untyped
  | more h hcomma _ ih =>
    exact List.forall_mem_append.2 ⟨h.untyped, List.forall_mem_cons.2 ⟨untyped_of_is hcomma (by decide), ih⟩⟩

/-- What specifiers are made of. -/
def isSpecifier (t : Tree) : Bool :=
  isOneOf (qualifiers ++ plainTypes ++ tagWords) t || isName t || t.opensWith "\x7b"

theorem isSpecifier_of_isOneOf (h : isOneOf words t = true) (hsub : words ⊆ qualifiers ++ plainTypes ++ tagWords) :
    isSpecifier t = true := by
  rw [isSpecifier, isOneOf_mono hsub h]
  rfl

theorem isSpecifier_of_isName (h : isName t = true) : isSpecifier t = true := by
  rw [isSpecifier, h, Bool.or_true]
  rfl

theorem Specifiers.forall_isSpecifier (h : Specifiers specifiers) : ∀ t ∈ specifiers, isSpecifier t = true := by
  have hqualifiers {ts : List Tree} (h : ∀ t ∈ ts, isOneOf qualifiers t = true) : ∀ t ∈ ts, isSpecifier t = true :=
    fun t ht => isSpecifier_of_isOneOf (h t ht) (by decide)
  have hkey {t : Tree} (h : isOneOf tagWords t = true) : isSpecifier t = true := isSpecifier_of_isOneOf h (by decide)
  cases h with
  | basic hfront hword hback =>
    exact List.forall_mem_append.2 ⟨hqualifiers hfront, List.forall_mem_cons.2
      ⟨isSpecifier_of_isOneOf hword (by decide), fun t ht => isSpecifier_of_isOneOf (hback t ht) (by decide)⟩⟩
  | named hfront hname hback =>
    exact List.forall_mem_append.2 ⟨hqualifiers hfront, List.forall_mem_cons.2
      ⟨isSpecifier_of_isName hname, hqualifiers hback⟩⟩
  | tagged hfront hkeyword hname hback =>
    exact List.forall_mem_append.2 ⟨hqualifiers hfront, List.forall_mem_cons.2 ⟨hkey hkeyword,
      List.forall_mem_cons.2 ⟨isSpecifier_of_isName hname, hqualifiers hback⟩⟩⟩
  | defined name hfront hkeyword hname hbody hback =>
    refine List.forall_mem_append.2 ⟨hqualifiers hfront, List.forall_mem_cons.2 ⟨hkey hkeyword,
      List.forall_mem_append.2 ⟨fun t ht => isSpecifier_of_isName (hname t (by simpa using ht)),
        List.forall_mem_cons.2 ⟨?_, hqualifiers hback⟩⟩⟩⟩
    rw [isSpecifier, hbody, Bool.or_true]

theorem Inner.of_isSpecifier (h : isSpecifier t = true) : Inner t := by
  simp only [isSpecifier, Bool.or_eq_true] at h
  rcases h with (h | h) | h
  · exact ⟨isDirectiveTree_of_isWord (isWord_of_isOneOf h), is_eq_false_of_isOneOf h (by decide),
      is_eq_false_of_isOneOf h (by decide)⟩
  · exact (untyped_of_isName h).toInner
  · exact (untyped_of_opensWith h).toInner

theorem Specifiers.ne_nil (h : Specifiers specifiers) : specifiers ≠ [] := by
  cases h <;> exact List.append_ne_nil_of_right_ne_nil _ (List.cons_ne_nil _ _)

/-! ## What declares something -/

theorem any_is_of_isOneOf {words' : List String} (h : isOneOf words t = true) (hsub : ∀ w ∈ words, w ∈ words') :
    words'.any t.is = true := by
  obtain ⟨token, rfl, hkind, hmem⟩ := exists_leaf_of_isOneOf h
  refine List.any_eq_true.2 ⟨token.text, hsub _ hmem, ?_⟩
  rw [Tree.is, Token.is, hkind]
  simp

theorem behindType_tagged {key name : Tree} (hkey : isOneOf tagWords key = true) (hname : isName name = true)
    (hu : followsType u = true) : declares.behindType (key :: name :: u :: us) = u :: us := by
  rw [declares.behindType, typeBody?_tagged hkey hname hu, behindTypeName_tagged hname
    (is_eq_false_of_followsType hu (by decide)) (is_eq_false_of_followsType hu (by decide))
    (is_eq_false_of_followsType hu (by decide))]
  simp only [is_eq_false_of_followsType hu (by decide : ":" ∈ _), Bool.false_eq_true, if_false]

theorem behindType_defined {key body : Tree} {name : Option Tree} (hkey : isOneOf tagWords key = true)
    (hname : ∀ t ∈ name, isName t = true) (hbody : body.opensWith "\x7b" = true) (hu : followsType u = true) :
    declares.behindType (key :: (name.toList ++ body :: u :: us)) = u :: us := by
  rw [declares.behindType, typeBody?_defined hkey hname hbody]
  exact afterAttributes_cons (any_is_eq_false fun w hw => is_eq_false_of_followsType hu (List.mem_append_right _ hw))
    (opensWith_of_followsType hu (by decide))

theorem declares_of_type (h : isOneOf plainTypes t = true) : declares (t :: u :: us) = true := by
  have his {w : String} (hw : w ∉ plainTypes) : t.is w = false := is_eq_false_of_isOneOf h hw
  have hattribute : attributeWords.any t.is = false := any_is_eq_false fun w hw => his (by revert w; decide)
  have hkeeping : ["static", "extern", "const", "volatile", "inline", "register", "constexpr"].any t.is = false :=
    any_is_eq_false fun w hw => his (by revert w; decide)
  rw [declares, afterAttributes_cons hattribute (opensWith_of_isWord (isWord_of_isOneOf h) _)]
  simp only [hkeeping, (untyped_of_isOneOf h (by decide)).key, any_is_of_isOneOf h (by decide : _ ⊆ basicTypes),
    Bool.false_eq_true, if_false, if_true]
  rfl

theorem declares_of_key (h : isOneOf tagWords t = true) (hbehind : declares.behindType (t :: ts) ≠ []) :
    declares (t :: ts) = true := by
  have his {w : String} (hw : w ∉ tagWords) : t.is w = false := is_eq_false_of_isOneOf h hw
  have hattribute : attributeWords.any t.is = false := any_is_eq_false fun w hw => his (by revert w; decide)
  have hkeeping : ["static", "extern", "const", "volatile", "inline", "register", "constexpr"].any t.is = false :=
    any_is_eq_false fun w hw => his (by revert w; decide)
  rw [declares, afterAttributes_cons hattribute (opensWith_of_isWord (isWord_of_isOneOf h) _)]
  simp only [hkeeping, is_key h, Bool.false_eq_true, if_false, if_true]
  simpa using hbehind

/-- A name declares what stands behind it, but for a parenthesis. -/
theorem declares_of_name (h : isName t = true) (hu : followsType u = true) (hparenthesis : u.opensWith "(" = false) :
    declares (t :: u :: us) = true := by
  have his {w : String} (hw : reserved.contains w = true ∨ w.toList.all Text.isWord = false) : t.is w = false :=
    is_eq_false_of_isName h hw
  have hattribute : attributeWords.any t.is = false := any_is_eq_false fun w hw => his (by revert w; decide)
  have hkeeping : ["static", "extern", "const", "volatile", "inline", "register", "constexpr"].any t.is = false :=
    any_is_eq_false fun w hw => his (by revert w; decide)
  have hbasic : basicTypes.any t.is = false := any_is_eq_false fun w hw => his (by revert w; decide)
  have htypeOf : typeOfWords.any t.is = false := any_is_eq_false fun w hw => his (by revert w; decide)
  have hname : afterName (t :: u :: us).length (t :: u :: us) = u :: us := by
    simp only [List.length_cons, afterName, his (by decide : reserved.contains "::" = true ∨ _), isWord_of_isName h,
      Bool.false_eq_true, if_false, if_true, afterArguments, is_eq_false_of_followsType hu (by decide : "<" ∈ _),
      is_eq_false_of_followsType hu (by decide : "::" ∈ _)]
  have hbehind : (u.isWord || u.is "*" || u.is "&" || u.is "&&") = true := by
    simp only [followsType, isPointer, Bool.or_eq_true] at hu
    rcases hu with ((hu | hu | hu) | hu) | hu
    · simp [isWord_of_isOneOf hu]
    · simp [hu]
    · simp [isWord_of_isOneOf hu]
    · simp [isWord_of_isName hu]
    · rw [hparenthesis] at hu
      cases hu
  rw [declares, afterAttributes_cons hattribute (opensWith_of_isWord (isWord_of_isName h) _)]
  simp only [hkeeping, (untyped_of_isName h).key, hbasic, htypeOf, isWord_of_isName h, hname, hbehind, Bool.false_and,
    Bool.not_true, Bool.false_eq_true, if_false]

/-- Qualifiers in front of a type change nothing. -/
theorem declares_append {front : List Tree} (hfront : ∀ t ∈ front, isOneOf qualifiers t = true)
    (hkey : isTypeWord u = true → declares.behindType (u :: us) ≠ []) (h : front = [] → declares (u :: us) = true) :
    declares (front ++ u :: us) = true := by
  cases front with
  | nil => exact h rfl
  | cons t front =>
    obtain ⟨ht, hfront⟩ := List.forall_mem_cons.1 hfront
    have hattribute : attributeWords.any t.is = false :=
      any_is_eq_false fun w hw => is_eq_false_of_isOneOf ht (by revert w; decide)
    have hbasic : basicTypes.any t.is = true := any_is_of_isOneOf ht (by decide)
    -- What stands behind the qualifier is another one or the type.
    obtain ⟨v, vs, hcons, hv⟩ : ∃ v vs, front ++ u :: us = v :: vs ∧
        (isTypeWord v = true → declares.behindType (v :: vs) ≠ []) := by
      cases front with
      | nil => exact ⟨u, us, rfl, hkey⟩
      | cons v front =>
        refine ⟨v, front ++ u :: us, rfl, fun h => ?_⟩
        rw [(untyped_of_isOneOf (hfront v List.mem_cons_self) (by decide)).key] at h
        cases h
    rw [List.cons_append, hcons, declares, afterAttributes_cons hattribute (opensWith_of_isWord (isWord_of_isOneOf ht) _)]
    dsimp only
    split
    · split
      · rename_i hword
        simpa using hv hword
      · rfl
    · rw [if_neg (by rw [(untyped_of_isOneOf ht (by decide)).key]; exact Bool.false_ne_true)]
      rfl

/-- Specifiers with a declarator behind them declare something. -/
theorem Specifiers.declares (h : Specifiers specifiers) (hu : followsType u = true)
    (hparenthesis : (∃ name, specifiers = [name] ∧ isName name = true) → u.opensWith "(" = false) :
    C.declares (specifiers ++ u :: us) = true := by
  cases h with
  | @basic front back word hfront hword hback =>
    rw [List.append_assoc, List.cons_append]
    refine declares_append hfront (fun h => ?_) fun _ => ?_
    · rw [(untyped_of_isOneOf hword (by decide)).key] at h
      cases h
    · cases back <;> exact declares_of_type hword
  | @named front back name hfront hname hback =>
    rw [List.append_assoc, List.cons_append]
    refine declares_append hfront (fun h => ?_) fun hnil => ?_
    · rw [(untyped_of_isName hname).key] at h
      cases h
    · subst hnil
      cases back with
      | nil => exact declares_of_name hname hu (hparenthesis ⟨name, rfl, hname⟩)
      | cons v back =>
        have hv := hback v List.mem_cons_self
        exact declares_of_name hname (by rw [followsType, hv]; rfl) (opensWith_of_isWord (isWord_of_isOneOf hv) _)
  | @tagged front back key name hfront hkey hname hback =>
    obtain ⟨v, vs, hbehind, hv⟩ := exists_followsType hback hu us
    have hne : declares.behindType (key :: name :: (back ++ u :: us)) ≠ [] := by
      rw [hbehind, behindType_tagged hkey hname hv]
      exact List.cons_ne_nil v vs
    rw [List.append_assoc, List.cons_append, List.cons_append]
    exact declares_append hfront (fun _ => hne) fun _ => declares_of_key hkey hne
  | @defined front back key body name hfront hkey hname hbody hback =>
    obtain ⟨v, vs, hbehind, hv⟩ := exists_followsType hback hu us
    have hne : declares.behindType (key :: (name.toList ++ body :: (back ++ u :: us))) ≠ [] := by
      rw [hbehind, behindType_defined hkey hname hbody hv]
      exact List.cons_ne_nil v vs
    rw [List.append_assoc, List.cons_append, List.append_assoc, List.cons_append]
    exact declares_append hfront (fun _ => hne) fun _ => declares_of_key hkey hne

/-! ## Finding a declaration -/

theorem Specifiers.exists_cons (h : Specifiers specifiers) : ∃ t ts, specifiers = t :: ts ∧
    (isOneOf (qualifiers ++ plainTypes ++ tagWords) t = true ∨ isName t = true) := by
  have hfirst {front ts : List Tree} {t : Tree} (hfront : ∀ t ∈ front, isOneOf qualifiers t = true)
      (ht : isOneOf (qualifiers ++ plainTypes ++ tagWords) t = true ∨ isName t = true) : ∃ u us, front ++ t :: ts = u :: us ∧
        (isOneOf (qualifiers ++ plainTypes ++ tagWords) u = true ∨ isName u = true) := by
    cases front with
    | nil => exact ⟨t, ts, rfl, ht⟩
    | cons u front => exact ⟨u, front ++ t :: ts, rfl, .inl (isOneOf_mono (by decide) (hfront u List.mem_cons_self))⟩
  cases h with
  | basic hfront hword => exact hfirst hfront (.inl (isOneOf_mono (by decide) hword))
  | named hfront hname => exact hfirst hfront (.inr hname)
  | tagged hfront hkey => exact hfirst hfront (.inl (isOneOf_mono (by decide) hkey))
  | defined name hfront hkey => exact hfirst hfront (.inl (isOneOf_mono (by decide) hkey))

/-- What may stand second in a declaration is no text and none of a few words. -/
theorem second_of_isSpecifier (h : isSpecifier u = true ∨ followsType u = true) :
    declarationsIn.isText u = false ∧ ∀ w ∈ ["template", "namespace", ":"], u.is w = false := by
  have hword {t : Tree} (h : t.isWord = true) : declarationsIn.isText t = false := by
    cases t with
    | group => rfl
    | leaf token =>
      rw [Tree.isWord, beq_iff_eq] at h
      rw [declarationsIn.isText, h]
      rfl
  have hgroup {t : Tree} {v : String} (h : t.opensWith v = true) :
      declarationsIn.isText t = false ∧ ∀ w ∈ ["template", "namespace", ":"], t.is w = false := by
    refine ⟨?_, fun w _ => is_eq_false_of_opensWith h w⟩
    cases t with
    | leaf => cases h
    | group => rfl
  have hname {t : Tree} (h : isName t = true) :
      declarationsIn.isText t = false ∧ ∀ w ∈ ["template", "namespace", ":"], t.is w = false :=
    ⟨hword (isWord_of_isName h), fun w hw => is_eq_false_of_isName h (by revert w; decide)⟩
  simp only [isSpecifier, followsType, isPointer, Bool.or_eq_true] at h
  -- A word of the language, a name or a body; or behind a type a qualifier, a pointer's sign, a name or parentheses.
  rcases h with ((h | h) | h) | ((h | h | h) | h) | h
  · exact ⟨hword (isWord_of_isOneOf h), fun w hw => is_eq_false_of_isOneOf h (by revert w; decide)⟩
  · exact hname h
  · exact hgroup h
  · exact ⟨hword (isWord_of_isOneOf h), fun w hw => is_eq_false_of_isOneOf h (by revert w; decide)⟩
  · refine ⟨?_, fun w hw => is_eq_false_of_is h (by revert w; decide)⟩
    cases u with
    | group => rfl
    | leaf token =>
      simp only [Tree.is, Token.is, Bool.and_eq_true, Bool.or_eq_true, beq_iff_eq] at h
      rw [declarationsIn.isText]
      rcases h.1 with hkind | hkind <;> rw [hkind] <;> rfl
  · exact ⟨hword (isWord_of_isOneOf h), fun w hw => is_eq_false_of_isOneOf h (by revert w; decide)⟩
  · exact hname h
  · exact hgroup h

/-- No word with which a declaration begins has a meaning of its own in a list of declarations. -/
theorem first_of_isOneOf (h : isOneOf (qualifiers ++ plainTypes ++ tagWords) t = true ∨ isName t = true) :
    ∀ w ∈ ["\x7b", ";", "\x7d", "template", "friend", "namespace", "case"] ++ jumpWords ++ controlWords, t.is w = false := by
  intro w hw
  rcases h with h | h
  · exact is_eq_false_of_isOneOf h (by revert w; decide)
  · exact is_eq_false_of_isName h (by revert w; decide)

/-- A list of declarations begins with what is read of the first. -/
theorem declarationsIn_cons (ht : isOneOf (qualifiers ++ plainTypes ++ tagWords) t = true ∨ isName t = true)
    (hu : isSpecifier u = true ∨ followsType u = true)
    (hreads : declaration ((u :: us).length + 2) {} (t :: u :: us) = (.semicolon m, rest))
    (hlength : rest.length ≤ (u :: us).length) (n : Nat) (top : Bool) (open_ : Nat) :
    declarationsIn (n + 1) top open_ false (t :: u :: us) =
      (if top && open_ == 0 && declares (beforeSemicolon (t :: u :: us)) then [Hit.whole 9 t.start m] else []) ++
        declarationsIn n top open_ false rest := by
  have hfirst := first_of_isOneOf ht
  have hword : t.isWord = true := ht.elim isWord_of_isOneOf isWord_of_isName
  obtain ⟨htext, hsecond⟩ := second_of_isSpecifier hu
  have his {w : String} (hw : w ∈ ["\x7b", ";", "\x7d", "template", "friend", "namespace", "case"]) : t.is w = false :=
    hfirst w (List.mem_append_left _ (List.mem_append_left _ hw))
  have hjump : jumpWords.any t.is = false :=
    any_is_eq_false fun w hw => hfirst w (List.mem_append_left _ (List.mem_append_right _ hw))
  have hcontrol : controlWords.any t.is = false := any_is_eq_false fun w hw => hfirst w (List.mem_append_right _ hw)
  have hlabel : behindLabel? (t :: u :: us) = none := by
    rw [behindLabel?, hsecond ":" (by decide), his (by decide), Bool.and_false]
    rfl
  rw [declarationsIn]
  simp only [isDirectiveTree_of_isWord hword, his (by decide : "\x7b" ∈ _), his (by decide : ";" ∈ _),
    his (by decide : "\x7d" ∈ _), his (by decide : "template" ∈ _), his (by decide : "friend" ∈ _),
    his (by decide : "namespace" ∈ _), opensWith_of_isWord hword, List.head?_cons, Option.map_some, htext,
    hsecond "template" (by decide), hsecond "namespace" (by decide), Option.getD_some, hjump, hcontrol, hlabel, hreads,
    if_pos hlength, Bool.or_self, Bool.and_false, Bool.false_and, Bool.false_eq_true, if_false, Bool.not_false,
    Bool.and_true]

theorem declarationsIn_directive (h : isDirectiveTree t = true) (n : Nat) (top : Bool) (open_ : Nat) (enclosed : Bool)
    (ts : List Tree) : declarationsIn (n + 1) top open_ enclosed (t :: ts) =
      declarationsIn n top (conditionals open_ t) enclosed ts := by
  conv_lhs => unfold declarationsIn
  rw [if_pos h]

theorem beforeSemicolon_append {front : List Tree} (hfront : ∀ t ∈ front, Inner t) (ht : t.is ";" = true) (rest : List Tree) :
    beforeSemicolon (front ++ t :: rest) = front := by
  rw [beforeSemicolon, List.takeWhile_append_of_pos fun u hu => by rw [(hfront u hu).semicolon]; rfl,
    List.takeWhile_cons_of_neg (by simp [ht]), List.append_nil]

theorem Declaration.inner {trees : List Tree} (h : Declaration trees) : ∃ front semicolon, trees = front ++ [semicolon] ∧
    front ≠ [] ∧ (∀ t ∈ front, Inner t) ∧ semicolon.is ";" = true := by
  obtain ⟨hspecifiers, hdeclarators, -, hsemicolon⟩ := h
  rename_i specifiers declarators semicolon
  refine ⟨specifiers ++ declarators, semicolon, (List.append_assoc _ _ _).symm, ?_, ?_, hsemicolon⟩
  · exact List.append_ne_nil_of_left_ne_nil hspecifiers.ne_nil _
  · exact List.forall_mem_append.2 ⟨fun t ht => .of_isSpecifier (hspecifiers.forall_isSpecifier t ht),
      fun t ht => (hdeclarators.untyped t ht).toInner⟩

theorem Declaration.exists_cons {trees : List Tree} (h : Declaration trees) : ∃ t ts, trees = t :: ts ∧ t.isWord = true := by
  obtain ⟨hspecifiers, -, -, -⟩ := h
  obtain ⟨t, ts, rfl, ht⟩ := hspecifiers.exists_cons
  exact ⟨t, _, rfl, ht.elim isWord_of_isOneOf isWord_of_isName⟩

/-- A declaration is found where no conditional is open. -/
theorem Declaration.found {trees : List Tree} (h : Declaration trees) (n open_ : Nat) (rest : List Tree) :
    declarationsIn (n + 1) true open_ false (trees ++ rest) =
      (if open_ = 0 then [Hit.whole 9 (Row.declaration trees).region.start (Row.declaration trees).region.stop] else []) ++
        declarationsIn n true open_ false rest := by
  obtain ⟨hspecifiers, hdeclarators, hcall, hsemicolon⟩ := h
  rename_i specifiers declarators semicolon
  obtain ⟨u, us, hcons, hu⟩ := hdeclarators.exists_cons
  have hdeclares : declares (beforeSemicolon (specifiers ++ (declarators ++ semicolon :: rest))) = true := by
    have hinner : ∀ t ∈ specifiers ++ declarators, Inner t :=
      List.forall_mem_append.2 ⟨fun t ht => .of_isSpecifier (hspecifiers.forall_isSpecifier t ht),
        fun t ht => (hdeclarators.untyped t ht).toInner⟩
    rw [← List.append_assoc, beforeSemicolon_append hinner hsemicolon, hcons]
    exact hspecifiers.declares hu fun hname => hcall hname u (by rw [hcons]; rfl)
  obtain ⟨t, ts, rfl, ht⟩ := hspecifiers.exists_cons
  have hreads := reads_declaration hspecifiers hdeclarators hsemicolon rest
    (show (t :: ts).length + declarators.length < (ts ++ (declarators ++ semicolon :: rest)).length + 2 by
      simp only [List.length_append, List.length_cons]; omega)
  -- The second tree is one of the specifiers or the first of the declarators.
  obtain ⟨v, vs, hbehind, hv⟩ : ∃ v vs, ts ++ (declarators ++ semicolon :: rest) = v :: vs ∧
      (isSpecifier v = true ∨ followsType v = true) := by
    cases ts with
    | nil => exact ⟨u, us ++ semicolon :: rest, by rw [hcons]; rfl, .inr hu⟩
    | cons v ts => exact ⟨v, _, rfl, .inl (hspecifiers.forall_isSpecifier v (by simp))⟩
  have hrest : rest.length ≤ (v :: vs).length := by
    rw [← hbehind]
    simp only [List.length_append, List.length_cons]
    omega
  have hregion : (Row.declaration (t :: ts ++ (declarators ++ [semicolon]))).region = ⟨t.start, semicolon.stop⟩ := by
    rw [← List.append_assoc, Row.region, Row.trees, List.getLast?_concat]
    rfl
  rw [hregion]
  simp only [List.cons_append, List.append_assoc, List.nil_append] at hreads hdeclares ⊢
  rw [hbehind] at hreads hdeclares ⊢
  rw [declarationsIn_cons ht hv hreads hrest, hdeclares]
  simp

/-! ## Types with a body -/

theorem typeBody?_of_no_key (h : isTypeWord t = false) : typeBody? (t :: ts) = none := by
  rw [typeBody?, List.head?_cons, Option.map_some, h]
  rfl

theorem typeHits_of_none (h : typeBody? (t :: ts) = none) : typeHits (t :: ts) = [] := by
  unfold typeHits
  rw [h]

theorem typesIn_cons_of_no_key (htypedef : t.is "typedef" = false) (hkey : isTypeWord t = false) (behindEnum : Bool) :
    typesIn behindEnum (t :: ts) = typesIn false ts := by
  have henum : t.is "enum" = false := by
    simp only [isTypeWord, Bool.or_eq_false_iff] at hkey
    exact hkey.1.2
  rw [typesIn, htypedef, henum, typeHits_of_none (typeBody?_of_no_key hkey)]
  simp

theorem typesIn_cons_of_untyped (h : Untyped t) (behindEnum : Bool) : typesIn behindEnum (t :: ts) = typesIn false ts :=
  typesIn_cons_of_no_key h.typedef h.key behindEnum

theorem typesIn_append_of_untyped {front : List Tree} (h : ∀ t ∈ front, Untyped t) :
    typesIn false (front ++ rest) = typesIn false rest := by
  induction front with
  | nil => rfl
  | cons t front ih =>
    rw [List.forall_mem_cons] at h
    rw [List.cons_append, typesIn_cons_of_untyped h.1, ih h.2]

/-- The hit of a type that is defined in front of declarators ends with its body. -/
theorem typeHits_defined {key body : Tree} {name : Option Tree} (hkey : isOneOf tagWords key = true)
    (hname : ∀ t ∈ name, isName t = true) (hbody : body.opensWith "\x7b" = true) (hu : followsType u = true)
    (us : List Tree) : ∃ rule, typeHits (key :: (name.toList ++ body :: u :: us)) = [Hit.whole rule key.start body.stop] := by
  have hstop : typeStop body (u :: us) = body.stop := by
    unfold typeStop
    split
    · rename_i heq
      cases heq
      rw [is_eq_false_of_followsType hu (by decide : "__attribute__" ∈ _)]
      rfl
    · rfl
  unfold typeHits
  rw [typeBody?_defined hkey hname hbody]
  dsimp only
  rw [hstop]
  obtain ⟨token, rfl, hkind, hmem⟩ := exists_leaf_of_isOneOf hkey
  simp only [tagWords, List.mem_cons, List.not_mem_nil, or_false] at hmem
  rcases hmem with hmem | hmem | hmem
  · exact ⟨5, by simp [Tree.is, Token.is, hkind, hmem]⟩
  · exact ⟨7, by simp [Tree.is, Token.is, hkind, hmem]⟩
  · exact ⟨6, by simp [Tree.is, Token.is, hkind, hmem]⟩

/-- The specifiers of a declaration hold at most one type with a body. -/
theorem Specifiers.typesIn (h : Specifiers specifiers) (hu : followsType u = true) (us : List Tree) :
    ∃ hs, typesIn false (specifiers ++ u :: us) = hs ++ typesIn false (u :: us) ∧
      ∀ h ∈ hs, ∃ key ∈ specifiers, ∃ body ∈ specifiers, body.opensWith "\x7b" = true ∧
        ∃ rule, h = Hit.whole rule key.start body.stop := by
  have hqualifier {ts : List Tree} (h : ∀ t ∈ ts, isOneOf qualifiers t = true) : ∀ t ∈ ts, Untyped t :=
    fun t ht => untyped_of_isOneOf (h t ht) (by decide)
  cases h with
  | @basic front back word hfront hword hback =>
    refine ⟨[], typesIn_append_of_untyped ?_, nofun⟩
    exact List.forall_mem_append.2 ⟨hqualifier hfront, List.forall_mem_cons.2 ⟨untyped_of_isOneOf hword (by decide),
      fun t ht => untyped_of_isOneOf (hback t ht) (by decide)⟩⟩
  | @named front back name hfront hname hback =>
    refine ⟨[], typesIn_append_of_untyped ?_, nofun⟩
    exact List.forall_mem_append.2 ⟨hqualifier hfront, List.forall_mem_cons.2 ⟨untyped_of_isName hname, hqualifier hback⟩⟩
  | @tagged front back key name hfront hkey hname hback =>
    -- The type is only named, and its body stands elsewhere.
    refine ⟨[], ?_, nofun⟩
    obtain ⟨v, vs, hbehind, hv⟩ := exists_followsType hback hu us
    have hnone : typeHits (key :: name :: (back ++ u :: us)) = [] :=
      typeHits_of_none (by rw [hbehind, typeBody?_tagged hkey hname hv])
    rw [List.append_assoc, typesIn_append_of_untyped (hqualifier hfront), List.cons_append, List.cons_append, C.typesIn,
      is_eq_false_of_isOneOf hkey (by decide), hnone, typesIn_cons_of_untyped (untyped_of_isName hname),
      typesIn_append_of_untyped (hqualifier hback)]
    rfl
  | @defined front back key body name hfront hkey hname hbody hback =>
    obtain ⟨v, vs, hbehind, hv⟩ := exists_followsType hback hu us
    obtain ⟨rule, hhit⟩ := typeHits_defined hkey hname hbody hv vs
    refine ⟨[Hit.whole rule key.start body.stop], ?_, ?_⟩
    · have hbody' : Untyped body := untyped_of_opensWith hbody
      have hbehindKey : C.typesIn (key.is "enum") (name.toList ++ body :: (back ++ u :: us)) = C.typesIn false (u :: us) := by
        cases name with
        | none =>
          rw [Option.toList_none, List.nil_append, typesIn_cons_of_untyped hbody',
            typesIn_append_of_untyped (hqualifier hback)]
        | some name =>
          rw [Option.toList_some, List.singleton_append, typesIn_cons_of_untyped (untyped_of_isName (hname name rfl)),
            typesIn_cons_of_untyped hbody', typesIn_append_of_untyped (hqualifier hback)]
      rw [List.append_assoc, typesIn_append_of_untyped (hqualifier hfront), List.cons_append, List.append_assoc,
        List.cons_append, C.typesIn, is_eq_false_of_isOneOf hkey (by decide), hbehindKey, hbehind, hhit]
      rfl
    · intro h hh
      rw [List.mem_singleton.1 hh]
      exact ⟨key, by simp, body, by simp, hbody, rule, rfl⟩

/-- Of the types of a declaration only those in its specifiers are found, with their bodies. -/
theorem Declaration.typesIn {trees : List Tree} (h : Declaration trees) (rest : List Tree) :
    ∃ hs, typesIn false (trees ++ rest) = hs ++ typesIn false rest ∧
      ∀ h ∈ hs, ∃ key ∈ trees.dropLast, ∃ body ∈ trees.dropLast, body.opensWith "\x7b" = true ∧
        ∃ rule, h = Hit.whole rule key.start body.stop := by
  obtain ⟨hspecifiers, hdeclarators, -, hsemicolon⟩ := h
  rename_i specifiers declarators semicolon
  obtain ⟨u, us, hcons, hu⟩ := hdeclarators.exists_cons
  obtain ⟨hs, htypes, hmem⟩ := hspecifiers.typesIn hu (us ++ semicolon :: rest)
  refine ⟨hs, ?_, fun h hh => ?_⟩
  · have hkey : isTypeWord semicolon = false := by
      rw [isTypeWord, is_eq_false_of_is hsemicolon (by decide), is_eq_false_of_is hsemicolon (by decide),
        is_eq_false_of_is hsemicolon (by decide), is_eq_false_of_is hsemicolon (by decide)]
      rfl
    rw [List.append_assoc, List.append_assoc, List.singleton_append, hcons, List.cons_append, htypes, ← List.cons_append,
      ← hcons, typesIn_append_of_untyped hdeclarators.untyped,
      typesIn_cons_of_no_key (is_eq_false_of_is hsemicolon (by decide)) hkey]
  · obtain ⟨key, hkey, body, hbody, hrest⟩ := hmem h hh
    rw [← List.append_assoc, List.dropLast_concat]
    exact ⟨key, List.mem_append_left _ hkey, body, List.mem_append_left _ hbody, hrest⟩

/-! ## Nothing unreadable -/

theorem unreadable_cons_of_next (h : ∀ u ∈ ts.head?, isDirectiveTree u = false) : unreadable (t :: ts) = unreadable ts := by
  cases ts with
  | nil => rfl
  | cons u ts => rw [unreadable, h u rfl, Bool.and_false, if_neg Bool.false_ne_true, List.nil_append]

theorem unreadable_cons_of_no_word (h : t.isWord = false) : unreadable (t :: ts) = unreadable ts := by
  cases ts with
  | nil => rfl
  | cons u ts => rw [unreadable, h, Bool.false_and, if_neg Bool.false_ne_true, List.nil_append]

theorem unreadable_cons_of_semicolon (h : t.is ";" = true) : unreadable (t :: ts) = unreadable ts := by
  cases ts with
  | nil => rfl
  | cons u ts =>
    rw [unreadable, reads_semicolon h]
    simp

theorem Declaration.unreadable {trees : List Tree} (h : Declaration trees) (rest : List Tree) :
    unreadable (trees ++ rest) = unreadable rest := by
  obtain ⟨front, semicolon, rfl, -, hfront, hsemicolon⟩ := h.inner
  clear h
  rw [List.append_assoc, List.singleton_append]
  induction front with
  | nil => exact unreadable_cons_of_semicolon hsemicolon
  | cons t front ih =>
    rw [List.forall_mem_cons] at hfront
    rw [List.cons_append, unreadable_cons_of_next, ih hfront.2]
    cases front with
    | nil => exact fun u hu => Option.some.inj hu ▸ (not_group_of_is hsemicolon).1
    | cons v front => exact fun u hu => Option.some.inj hu ▸ (hfront.2 v List.mem_cons_self).directive

end PromptPack.Syntax.C
