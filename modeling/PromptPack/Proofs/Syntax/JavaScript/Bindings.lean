import Mathlib.Tactic.SplitIfs
import PromptPack.Proofs.Syntax.Trees
import PromptPack.Syntax.JavaScript
/-!
# Bindings of functions

A binding declares one name by a function: a keyword, the name, a sign, then an arrow function or a function expression.
Of its statement one thing is found (`Binding.statementHits_eq`), and more of its export
(`Binding.statementHits_exported`).
-/

namespace PromptPack.Syntax.JavaScript

open Outline (Hit Region)

/-! ## Grammar -/

/-- Words that are no names. -/
def reservedWords : List String :=
  ["break", "case", "catch", "class", "const", "continue", "debugger", "default", "delete", "do", "else", "enum", "export",
    "extends", "false", "finally", "for", "function", "if", "import", "in", "instanceof", "let", "new", "null", "return",
    "super", "switch", "this", "throw", "true", "try", "typeof", "var", "void", "while", "with"]

def isNameText (text : String) : Bool :=
  !reservedWords.contains text && text.toList.all fun c => Text.isWord c || c == '$'

/-- Whether the tree is a name that can be bound. -/
def isBindable : Tree → Bool
  | .leaf t => t.kind == .word && isNameText t.text
  | .group .. => false

/-- Words that declare variables. -/
def keywords : List String := ["const", "let", "var"]

/-- A function as a value: whether it is an arrow function, and its trees up to the body and in it. -/
inductive FunctionValue : Bool → List Tree → List Tree → Prop
  /-- The body is a block and nothing else, or an expression that begins with none. -/
  | arrow {params mark t : Tree} {ts : List Tree} (async : Option Tree) : (∀ a ∈ async, a.is "async" = true) →
      isBindable params = true ∨ params.opensWith "(" = true → mark.is "=>" = true →
      (t.opensWith "\x7b" = true → ts = []) → (∀ u ∈ t :: ts, u.is "," = false ∧ u.is ";" = false) →
      FunctionValue true (async.toList ++ [params, mark]) (t :: ts)
  /-- The word for functions stands on the line of the word in front of it. -/
  | function {key params block : Tree} (async name : Option Tree) : (∀ a ∈ async, a.is "async" = true ∧ key.fresh = false) →
      key.is "function" = true → (∀ n ∈ name, isBindable n = true) → params.opensWith "(" = true →
      block.opensWith "\x7b" = true → FunctionValue false (async.toList ++ key :: (name.toList ++ [params])) [block]

/-- What stands behind the keyword where a name is bound to a function. -/
structure Binding where
  name : Tree
  sign : Tree
  arrow : Bool
  head : List Tree
  body : List Tree
  semicolon : Option Tree
  name_isBindable : isBindable name = true
  sign_is : sign.is "=" = true
  value : FunctionValue arrow head body
  semicolon_is : ∀ t ∈ semicolon, t.is ";" = true

namespace Binding

/-- The trees behind the keyword. -/
def trees (b : Binding) : List Tree := b.name :: b.sign :: (b.head ++ b.body ++ b.semicolon.toList)

/-- The span of the body. -/
def region (b : Binding) : Region := ⟨(b.body.head?.map Tree.start).getD 0, stopOf b.body⟩

end Binding

/-! ## Reading -/

variable {t params : Tree} {ts head body : List Tree} {arrow : Bool} {b : Binding} {k : Token} {text : String}

theorem isWord_of_isBindable (h : isBindable t = true) : t.isWord = true := by
  cases t with
  | group => cases h
  | leaf token =>
    rw [isBindable, Bool.and_eq_true] at h
    exact h.1

/-- A name is no word that means something else, and no mark. -/
theorem is_eq_false_of_isBindable (h : isBindable t = true) (htext : isNameText text = false) : t.is text = false := by
  cases t with
  | group => cases h
  | leaf token =>
    rw [isBindable, Bool.and_eq_true] at h
    rw [Tree.is, Token.is, Bool.and_eq_false_iff, beq_eq_false_iff_ne]
    refine .inr fun heq => ?_
    rw [heq, htext] at h
    cases h.2

theorem is_eq_false_of_params (h : isBindable t = true ∨ t.opensWith "(" = true) (htext : isNameText text = false) :
    t.is text = false := by
  rcases h with h | h
  · exact is_eq_false_of_isBindable h htext
  · exact is_eq_false_of_opensWith h text

theorem isVariableWord_of_is (hk : t.is text = true) (htext : text ∈ keywords) : isVariableWord t = true := by
  simp only [keywords, List.mem_cons, List.not_mem_nil, or_false] at htext
  rcases htext with rfl | rfl | rfl <;> simp [isVariableWord, hk]

/-- A function begins with its word, or with the one for asynchronous functions and its word. -/
theorem functionAt?_eq_none (h : headIs "function" ts = false) (htail : headIs "function" ts.tail = false) :
    functionAt? ts = none := by
  cases ts with
  | nil => rfl
  | cons first rest =>
    unfold functionAt?
    dsimp -zeta only
    extract_lets behindAsync
    have hbehind : headIs "function" behindAsync = false := by
      dsimp only [behindAsync]
      split
      · exact htail
      · exact h
    rw [hbehind]
    rfl

section Arrow

variable {mark : Tree} (async : Option Tree) (hasync : ∀ a ∈ async, a.is "async" = true)
  (hparams : isBindable params = true ∨ params.opensWith "(" = true) (hmark : mark.is "=>" = true)
include hasync hparams hmark

theorem arrowBody?_arrow (ht : t.opensWith "\x7b" = true → ts = []) :
    arrowBody? (async.toList ++ [params, mark] ++ t :: ts) = some ⟨t.start, stopOf (t :: ts)⟩ := by
  have hbody : (ts.isEmpty || !t.opensWith "\x7b") = true := by
    cases hopens : t.opensWith "\x7b" with
    | false => simp
    | true => simp [ht hopens]
  have hword : (params.isWord || params.opensWith "(") = true := by
    rcases hparams with h | h
    · rw [isWord_of_isBindable h, Bool.true_or]
    · rw [h, Bool.or_true]
  cases async with
  | none =>
    simp only [Option.toList_none, List.nil_append, List.cons_append, arrowBody?, headIs, List.tail_cons, hmark, hword,
      hbody, Bool.not_true, Bool.and_false, Bool.false_eq_true, if_false, Bool.true_and, if_true]
  | some a =>
    simp only [Option.toList_some, List.cons_append, List.nil_append, arrowBody?, headIs, List.tail_cons, hasync a rfl,
      is_eq_false_of_params hparams (by decide : isNameText "=>" = false), hmark, hword, hbody, Bool.not_false,
      Bool.true_and, if_true]

theorem functionAt?_arrow : functionAt? (async.toList ++ [params, mark] ++ t :: ts) = none := by
  have hkey := is_eq_false_of_params hparams (by decide : isNameText "function" = false)
  have hmark' : mark.is "function" = false := is_eq_false_of_is hmark (by decide)
  cases async with
  | none => exact functionAt?_eq_none hkey hmark'
  | some a => exact functionAt?_eq_none (is_eq_false_of_is (hasync a rfl) (by decide)) hkey

end Arrow

section Function

variable {key block : Tree} (async name : Option Tree) (hasync : ∀ a ∈ async, a.is "async" = true ∧ key.fresh = false)
  (hkey : key.is "function" = true) (hname : ∀ n ∈ name, isBindable n = true) (hparams : params.opensWith "(" = true)
  (hblock : block.opensWith "\x7b" = true)
include hasync hkey hname hparams

theorem arrowBody?_function : arrowBody? (async.toList ++ key :: (name.toList ++ [params]) ++ [block]) = none := by
  have harrow : ∀ n ∈ name, n.is "=>" = false := fun n hn =>
    is_eq_false_of_isBindable (hname n hn) (by decide)
  have hasync' : key.is "async" = false := is_eq_false_of_is hkey (by decide)
  have hkey' : key.is "=>" = false := is_eq_false_of_is hkey (by decide)
  have hparams' : params.is "=>" = false := is_eq_false_of_opensWith hparams "=>"
  cases async with
  | none =>
    cases name with
    | none => simp [arrowBody?, headIs, hasync', hparams']
    | some n => simp [arrowBody?, headIs, hasync', harrow n rfl]
  | some a =>
    cases name with
    | none => simp [arrowBody?, headIs, (hasync a rfl).1, hkey', hparams']
    | some n => simp [arrowBody?, headIs, (hasync a rfl).1, hkey', harrow n rfl]

include hblock

theorem functionAt?_function : ∃ start, functionAt? (async.toList ++ key :: (name.toList ++ [params]) ++ [block]) =
    some ⟨start, block, name.isSome, false⟩ := by
  have hasync' : key.is "async" = false := is_eq_false_of_is hkey (by decide)
  have hparams' : params.is "*" = false := is_eq_false_of_opensWith hparams "*"
  have hword : params.isWord = false := by
    cases params with
    | group => rfl
    | leaf => cases hparams
  have hbody : bodyIn? [block] = some block := by rw [bodyIn?, if_pos hblock]
  have hname' : ∀ n ∈ name, n.is "*" = false ∧ n.isWord = true := fun n hn =>
    ⟨is_eq_false_of_isBindable (hname n hn) (by decide), isWord_of_isBindable (hname n hn)⟩
  cases async with
  | none =>
    refine ⟨key.start, ?_⟩
    cases name with
    | none => simp [functionAt?, headIs, headIsWord, hasync', hkey, hparams, hparams', hword, hbody]
    | some n => simp [functionAt?, headIs, headIsWord, hasync', hkey, hparams, hname' n rfl, hbody]
  | some a =>
    refine ⟨a.start, ?_⟩
    cases name with
    | none => simp [functionAt?, headIs, headIsWord, hasync a rfl, hkey, hparams, hparams', hword, hbody]
    | some n => simp [functionAt?, headIs, headIsWord, hasync a rfl, hkey, hparams, hname' n rfl, hbody]

end Function

/-- A function that is a value has the body that its grammar gives it, and is of one kind. -/
theorem FunctionValue.bodies (h : FunctionValue arrow head body) :
    arrowBody? (head ++ body) =
        (if arrow then some ⟨(body.head?.map Tree.start).getD 0, stopOf body⟩ else none) ∧
      functionBody? (head ++ body) =
        (if arrow then none else some ⟨(body.head?.map Tree.start).getD 0, stopOf body⟩) := by
  cases h with
  | arrow async hasync hparams hmark ht =>
    refine ⟨arrowBody?_arrow async hasync hparams hmark ht, ?_⟩
    rw [functionBody?, functionAt?_arrow async hasync hparams hmark]
    rfl
  | @function key params block async name hasync hkey hname hparams hblock =>
    refine ⟨arrowBody?_function async name hasync hkey hname hparams, ?_⟩
    obtain ⟨start, hfunction⟩ := functionAt?_function async name hasync hkey hname hparams hblock
    have hstop : stopOf (async.toList ++ key :: (name.toList ++ [params]) ++ [block]) = block.stop := by
      rw [stopOf, List.getLast?_concat]
      rfl
    rw [functionBody?, hfunction]
    dsimp only
    rw [hstop, beq_self_eq_true]
    rfl

/-! ## Declarations -/

theorem declarators_eq (h : ∀ t ∈ ts, t.is "," = false) : declarators ts = [ts] := by
  induction ts with
  | nil => rfl
  | cons t ts ih =>
    rw [List.forall_mem_cons] at h
    rw [declarators, h.1, ih h.2]
    rfl

/-- No comma and no semicolon stands between the brackets of the value. -/
theorem FunctionValue.separates (h : FunctionValue arrow head body) :
    (∀ t ∈ head ++ body, t.is "," = false) ∧ ∃ front last, body = front ++ [last] ∧ last.is ";" = false := by
  cases h with
  | @arrow params mark t ts async hasync hparams hmark ht hbody =>
    refine ⟨?_, ?_⟩
    · intro u hu
      rcases List.mem_append.1 hu with hu | hu
      · rcases List.mem_append.1 hu with hu | hu
        · exact is_eq_false_of_is (hasync u (Option.mem_toList.1 hu)) (by decide)
        · rcases List.mem_cons.1 hu with rfl | hu
          · exact is_eq_false_of_params hparams (by decide)
          · rw [List.mem_singleton.1 hu]
            exact is_eq_false_of_is hmark (by decide)
      · exact (hbody u hu).1
    · obtain ⟨front, last, hconcat⟩ := (List.eq_nil_or_concat (t :: ts)).resolve_left (List.cons_ne_nil t ts)
      rw [List.concat_eq_append] at hconcat
      exact ⟨front, last, hconcat, (hbody last (by rw [hconcat]; simp)).2⟩
  | @function key params block async name hasync hkey hname hparams hblock =>
    refine ⟨?_, [], block, rfl, is_eq_false_of_opensWith hblock ";"⟩
    intro u hu
    simp only [List.mem_append, List.mem_cons, Option.mem_toList, List.not_mem_nil, or_false] at hu
    rcases hu with (hu | rfl | hu | rfl) | rfl
    · exact is_eq_false_of_is (hasync u hu).1 (by decide)
    · exact is_eq_false_of_is hkey (by decide)
    · exact is_eq_false_of_isBindable (hname u hu) (by decide)
    · exact is_eq_false_of_opensWith hparams ","
    · exact is_eq_false_of_opensWith hblock ","

theorem withoutSemicolon_concat (front : List Tree) (last : Tree) :
    withoutSemicolon (front ++ [last]) = if last.is ";" then front else front ++ [last] := by
  rw [withoutSemicolon, List.getLast?_concat, List.dropLast_concat]
  rfl

namespace Binding

theorem withoutSemicolon_trees (b : Binding) (t : Tree) :
    withoutSemicolon (t :: b.trees) = t :: b.name :: b.sign :: (b.head ++ b.body) := by
  have htrees : t :: b.trees = (t :: b.name :: b.sign :: (b.head ++ b.body)) ++ b.semicolon.toList := rfl
  obtain ⟨-, front, last, hbody, hlast⟩ := b.value.separates
  rw [htrees]
  cases hsemicolon : b.semicolon with
  | none =>
    rw [Option.toList_none, List.append_nil, hbody, ← List.append_assoc, ← List.cons_append, ← List.cons_append,
      ← List.cons_append, withoutSemicolon_concat, hlast]
    rfl
  | some u => rw [Option.toList_some, withoutSemicolon_concat, b.semicolon_is u hsemicolon, if_pos rfl]

section

variable (b : Binding) (hk : t.is text = true) (htext : text ∈ keywords) (hone : statement (t :: b.trees) = t :: b.trees)
include hk htext hone

/-- Of a declaration with one name the value is read. -/
theorem valuesAt_eq : valuesAt (t :: b.trees) = [b.head ++ b.body] := by
  have hne {w : String} (hw : w ∉ keywords) : t.is w = false := is_eq_false_of_is hk fun heq => hw (heq ▸ htext)
  have hname {w : String} (hw : isNameText w = false) : b.name.is w = false := is_eq_false_of_isBindable b.name_isBindable hw
  have hcommas : ∀ u ∈ t :: b.name :: b.sign :: (b.head ++ b.body), u.is "," = false := by
    refine List.forall_mem_cons.2 ⟨hne (by decide), List.forall_mem_cons.2 ⟨hname (by decide), List.forall_mem_cons.2
      ⟨is_eq_false_of_is b.sign_is (by decide), b.value.separates.1⟩⟩⟩
  rw [valuesAt, hone, b.withoutSemicolon_trees, declarators_eq hcommas, List.map_singleton, valueOf,
    List.dropWhile_cons_of_pos (by simp [hne (by decide : "=" ∉ keywords)]),
    List.dropWhile_cons_of_pos (by simp [hname (by decide : isNameText "=" = false)]),
    List.dropWhile_cons_of_neg (by simp [b.sign_is]), List.tail_cons]

/-- The rule for the binding of a function by the keyword. -/
def rule (b : Binding) (text : String) : Nat := (if b.arrow then 11 else 13) + if text == "var" then 1 else 0

theorem variableHits_eq : variableHits (t :: b.trees) =
    [Hit.signature (b.rule text) t.start (freeStopOf (t :: b.trees)) b.region.start b.region.stop] := by
  obtain ⟨harrow, hfunction⟩ := b.value.bodies
  rw [variableHits, b.valuesAt_eq hk htext hone, hone, is_eq_beq hk, List.flatMap_singleton, harrow, hfunction, rule]
  cases b.arrow <;> rfl

theorem statementHits_eq : statementHits (t :: b.trees) =
    [Hit.signature (b.rule text) t.start (freeStopOf (t :: b.trees)) b.region.start b.region.stop] := by
  have himport : t.is "import" = false := is_eq_false_of_is hk (by rintro rfl; revert htext; decide)
  unfold statementHits
  dsimp only
  rw [himport, isVariableWord_of_is hk htext, if_neg Bool.false_ne_true, if_pos rfl, b.variableHits_eq hk htext hone]

variable {e : Tree} (he : e.is "export" = true) (hfresh : t.fresh = false)
include he hfresh

omit hk htext in
/-- The word for exports on the line of a declaration goes on with its statement. -/
theorem statement_exported : statement (e :: t :: b.trees) = e :: t :: b.trees := by
  have hne {w : String} (hw : "export" ≠ w) : e.is w = false := is_eq_false_of_is he hw
  have hhead : headBehind false e = false := by
    rw [headBehind, opensWith_of_is he, hne (by decide), hne (by decide)]
    rfl
  have hbreak : breaksBetween e t = false := by
    rw [breaksBetween, hfresh]
    rfl
  rw [statement, statement.go, hne (by decide), if_neg Bool.false_ne_true]
  dsimp only
  rw [hhead, hbreak, Bool.and_false, if_neg Bool.false_ne_true]
  exact congrArg _ hone

/-- An exported binding is found as a whole, by its signature if it is an arrow function and no old variable, and once
more without the export. -/
theorem statementHits_exported : statementHits (e :: t :: b.trees) =
    (if text == "var" then [Hit.whole 17 e.start (freeStopOf (e :: t :: b.trees))]
      else (if b.arrow then [Hit.signature 15 e.start (freeStopOf (e :: t :: b.trees)) b.region.start b.region.stop] else []) ++
        [Hit.whole 16 e.start (freeStopOf (e :: t :: b.trees))]) ++
    [Hit.signature (b.rule text) t.start (freeStopOf (t :: b.trees)) b.region.start b.region.stop] := by
  have hne {w : String} (hw : w ∉ keywords) : t.is w = false := is_eq_false_of_is hk fun heq => hw (heq ▸ htext)
  have hexport {w : String} (hw : "export" ≠ w) : e.is w = false := is_eq_false_of_is he hw
  have hfunction : functionAt? (t :: b.trees) = none :=
    functionAt?_eq_none (hne (by decide)) (is_eq_false_of_isBindable b.name_isBindable (by decide))
  have hclass : classAt? (t :: b.trees) = none := by
    have hplain : undecorated (t :: b.trees) = t :: b.trees := by
      rw [undecorated, List.length_cons, trees, afterDecorators, hne (by decide), if_neg Bool.false_ne_true]
    unfold classAt?
    rw [hplain]
    dsimp only
    rw [hne (by decide), if_neg Bool.false_ne_true]
  have hvariable := isVariableWord_of_is hk htext
  have hexported : isVariableWord e = false := by
    rw [isVariableWord, hexport (by decide), hexport (by decide), hexport (by decide)]
    rfl
  -- Neither a function nor a class stands behind the export, so the word of the binding decides.
  unfold statementHits
  dsimp only
  rw [hexport (by decide), hexported, he, if_neg Bool.false_ne_true, if_neg Bool.false_ne_true, if_pos rfl]
  unfold exportHits
  dsimp only [headIs, List.tail_cons]
  rw [hne (by decide), if_neg Bool.false_ne_true, hfunction, hclass]
  simp only [List.head?_cons, Option.map_some, Option.getD_some, hvariable, Bool.or_true, Bool.false_eq_true, if_false,
    if_true, b.statement_exported hone he hfresh, b.valuesAt_eq hk htext hone, b.variableHits_eq hk htext hone, is_eq_beq hk]
  have hbodies : [b.head ++ b.body].filterMap arrowBody? = if b.arrow then [b.region] else [] := by
    rw [List.filterMap_cons, b.value.bodies.1]
    cases b.arrow <;> rfl
  rw [hbodies]
  cases b.arrow <;> rfl

end

end Binding

end PromptPack.Syntax.JavaScript
