import Mathlib.Data.String.Basic
import PromptPack.Outline.Rules
import PromptPack.Proofs.Regex.Beginnings
import PromptPack.Proofs.Regex.Moved
/-!
# How the matches of the rules begin

No rule but the one for imports in Swift asks where lines start, and all matches of the others begin with a character that
is not blank. In Swift they do not begin like an import either.
-/

namespace PromptPack

/-- A blank is no word character. -/
theorem Text.isWord_of_isBlank {c : Char} (h : isBlank c = true) : isWord c = false := by
  let codes : List Nat := [9, 10, 11, 12, 13, 0x20, 0x85, 0xA0, 0x1680, 0x2000, 0x2001, 0x2002, 0x2003, 0x2004, 0x2005,
    0x2006, 0x2007, 0x2008, 0x2009, 0x200A, 0x2028, 0x2029, 0x202F, 0x205F, 0x3000]
  have hcode : c.toNat ∈ codes := by
    simp only [isBlank, Bool.or_eq_true, Bool.and_eq_true, decide_eq_true_eq, beq_iff_eq] at h
    simp only [codes, List.mem_cons, List.not_mem_nil, or_false]
    omega
  have hword : ∀ n ∈ codes, isWord (Char.ofNat n) = false := by decide +kernel
  rw [← Char.ofNat_toNat c]
  exact hword c.toNat hcode

namespace Outline

open Regex

variable {b : Beginning}

/-- The text begins neither with a blank nor like an import. -/
def beginsUnlikeImport : List Char → Bool
  | [] => false
  | x :: rest => !Text.isBlank x && (x != 'i' || rest.head? == some 'n')

def unlikeImport : Beginning where
  holds := beginsUnlikeImport
  lasts cs ds h := by
    cases cs with
    | nil => cases h
    | cons x cs =>
      simp only [beginsUnlikeImport, List.cons_append, Bool.and_eq_true, Bool.or_eq_true, beq_iff_eq] at h ⊢
      refine ⟨h.1, h.2.imp_right fun hn => ?_⟩
      rw [List.head?_append, hn]
      rfl

/-- The text begins with a blank or like an import. -/
def beginsLikeImport : List Char → Bool
  | [] => false
  | x :: rest => Text.isBlank x || (x == 'i' && rest.head? == some 'm')

def likeImport : Beginning where
  holds := beginsLikeImport
  lasts cs ds h := by
    cases cs with
    | nil => cases h
    | cons x cs =>
      simp only [beginsLikeImport, List.cons_append, Bool.and_eq_true, Bool.or_eq_true, beq_iff_eq] at h ⊢
      refine h.imp_right fun h => ⟨h.1, ?_⟩
      rw [List.head?_append, h.2]
      rfl

theorem beginsUnlikeImport_eq_false {cs : List Char} (h : beginsLikeImport cs = true) :
    beginsUnlikeImport cs = false := by
  cases cs with
  | nil => rfl
  | cons x cs =>
    simp only [beginsLikeImport, beginsUnlikeImport, Bool.or_eq_true, Bool.and_eq_true, beq_iff_eq] at h ⊢
    rcases h with hblank | ⟨rfl, hm⟩
    · simp [hblank]
    · simp [hm]

theorem visible_of_unlikeImport {r : Regex} (h : Begins unlikeImport r) : Begins visible r := by
  intro cs hcs
  have hholds := h cs hcs
  cases cs with
  | nil => cases hholds
  | cons x cs => exact (Bool.and_eq_true_iff.1 hholds).1

/-- A rule that finds the same wherever its text stands. -/
structure Unpinned (b : Beginning) (r : Regex) : Prop where
  asks : r.asksLineStart = false
  begins : Begins b r

theorem begins_keywords {ks : List String} (h : ∀ k ∈ ks, b.holds k.toList = true) : Begins b (Java.keywords ks) := by
  refine begins_oneOf (List.forall_mem_map.2 fun k hk => ?_)
  exact (begins_literal (h k hk)).left

namespace Html

theorem begins_tag {name : String} : Begins visible (anyCase ("<" ++ name)) :=
  begins_anyCase String.toList_append (by decide) (by decide)

theorem begins_openTag {name : String} : Begins visible (openTag name) := begins_tag.left.left

theorem begins_tags {name : String} : Begins visible (tags name) := by
  have hclose : ("</" ++ name ++ ">").toList = '<' :: '/' :: (name ++ ">").toList := by
    rw [String.append_assoc, String.toList_append]
    rfl
  exact begins_openTag.alt (begins_anyCase hclose (by decide) (by decide))

theorem unpinned_of_mem_rules : ∀ rule ∈ rules, Unpinned visible rule.pattern := by
  simp only [rules, List.forall_mem_cons, List.not_mem_nil, false_implies, implies_true, and_true]
  have hdoctype : Begins visible (anyCase "<!DOCTYPE") := @begins_tag "!DOCTYPE"
  have hcomment : Begins visible (literal "<!--") := begins_literal (by decide)
  exact ⟨⟨by decide, hdoctype.left.left⟩, ⟨by decide, begins_tags⟩, ⟨by decide, begins_tags⟩,
    ⟨by decide, begins_tags⟩, ⟨by decide, hcomment.left.left⟩, ⟨by decide, begins_openTag.left.left⟩,
    ⟨by decide, begins_openTag⟩, ⟨by decide, begins_openTag⟩⟩

end Html

namespace Java

theorem begins_clause {keyword : String} (h : b.holds keyword.toList = true) : Begins b (clause keyword) :=
  (mayBegin_wordBoundary.seq (begins_literal h)).left.left.left

theorem begins_lineComment (h : b.holds "//".toList = true) : Begins b lineComment := (begins_literal h).left.left

theorem begins_blockComment (h : b.holds "/*".toList = true) : Begins b blockComment := (begins_literal h).left.left

theorem begins_word : Begins visible word := (begins_visible_char fun _ => Text.isWord_of_isBlank).plus

theorem mayBegin_access : MayBegin visible access := (begins_keywords (by decide)).maybe

theorem begins_classHead : Begins visible classHead := by
  have hstatic : MayBegin visible (maybe ("static" ++ gap)) := (begins_literal (by decide)).left.maybe
  have hkeywords : MayBegin visible (maybe (keywords ["abstract", "final"])) := (begins_keywords (by decide)).maybe
  have hclass : Begins visible (literal "class") := begins_literal (by decide)
  exact (((mayBegin_access.append hstatic).append hkeywords).seq hclass).left.left.left.left.left.left

theorem begins_interfaceHead : Begins visible interfaceHead := by
  have hinterface : Begins visible (literal "interface") := begins_literal (by decide)
  exact (mayBegin_access.seq hinterface).left.left.left.left.left

theorem begins_enumHead : Begins visible enumHead := by
  have henum : Begins visible (literal "enum") := begins_literal (by decide)
  exact (mayBegin_access.seq henum).left.left.left.left

theorem mayBegin_result : MayBegin visible result := by
  have hname : Begins visible (char fun c => Text.isWord c || c == '.') := by
    refine begins_visible_char fun c hblank => ?_
    have hdot : c ≠ '.' := by
      rintro rfl
      cases hblank
    simp [Text.isWord_of_isBlank hblank, hdot]
  exact hname.plus.group.left.left.left.maybe

theorem begins_method : Begins visible method := by
  have hmodifiers : MayBegin visible (star .greedy (keywords ["static", "final", "abstract", "synchronized"])) :=
    (begins_keywords (by decide)).star
  have hparameters : MayBegin visible (maybe ("<" ++ plus .greedy (noneOf ['>']) ++ ">" ++ gap)) :=
    (begins_literal (by decide)).left.left.left.maybe
  have hfront := ((mayBegin_access.append hmodifiers).append hparameters).append mayBegin_result
  exact (hfront.seq begins_word.group).left.left.left.left.left.left

theorem unpinned_of_mem_rules : ∀ rule ∈ rules, Unpinned visible rule.pattern := by
  simp only [rules, List.forall_mem_cons, List.not_mem_nil, false_implies, implies_true, and_true]
  exact ⟨⟨by decide, begins_lineComment (by decide)⟩, ⟨by decide, begins_blockComment (by decide)⟩,
    ⟨by decide, begins_clause (by decide)⟩, ⟨by decide, begins_clause (by decide)⟩, ⟨by decide, begins_classHead⟩,
    ⟨by decide, begins_interfaceHead⟩, ⟨by decide, begins_enumHead⟩, ⟨by decide, begins_method⟩⟩

end Java

namespace Swift

theorem begins_head {keyword : String} (h : b.holds keyword.toList = true) : Begins b (head keyword) :=
  (begins_literal h).left.left.left.left.left

theorem mayBegin_access : MayBegin unlikeImport access := (begins_keywords (by decide)).maybe

theorem mayBegin_openAccess : MayBegin unlikeImport openAccess := (begins_keywords (by decide)).maybe

theorem begins_function : Begins unlikeImport function := by
  have hoverride : MayBegin unlikeImport (maybe ("override" ++ gap)) := (begins_literal (by decide)).left.maybe
  have hstatic : MayBegin unlikeImport (maybe (Java.keywords ["static", "class"])) := (begins_keywords (by decide)).maybe
  have hmutating : MayBegin unlikeImport (maybe ("mutating" ++ gap)) := (begins_literal (by decide)).left.maybe
  have hfunc : Begins unlikeImport (literal "func") := begins_literal (by decide)
  have hfront := ((mayBegin_openAccess.append hoverride).append hstatic).append hmutating
  exact (hfront.seq hfunc).left.left.left.left.left.left.left.left.left.left.left.left

theorem begins_importLine : Begins likeImport importLine := by
  have hblank : Begins likeImport blank := by
    refine begins_char fun c hc => ?_
    change (Text.isBlank c || _) = true
    rw [hc, Bool.true_or]
  have himport : Begins likeImport (literal "import") := begins_literal (by decide)
  exact ((mayBegin_lineStart.append hblank.star).seq himport).left.left

theorem unpinned_of_mem_rules :
    ∀ rule ∈ rules, rule = ⟨importLine, .all⟩ ∨ Unpinned unlikeImport rule.pattern := by
  simp only [rules, List.forall_mem_cons, List.not_mem_nil, false_implies, implies_true, and_true]
  have hfinal : MayBegin unlikeImport (maybe ("final" ++ gap)) := (begins_literal (by decide)).left.maybe
  have hindirect : MayBegin unlikeImport (maybe ("indirect" ++ gap)) := (begins_literal (by decide)).left.maybe
  exact ⟨.inr ⟨by decide, Java.begins_lineComment (by decide)⟩, .inr ⟨by decide, Java.begins_blockComment (by decide)⟩,
    .inl trivial, .inr ⟨by decide, mayBegin_openAccess.seq (begins_head (by decide))⟩,
    .inr ⟨by decide, (mayBegin_openAccess.append hfinal).seq (begins_head (by decide))⟩,
    .inr ⟨by decide, mayBegin_access.seq (begins_head (by decide))⟩,
    .inr ⟨by decide, (mayBegin_access.append hindirect).seq (begins_head (by decide))⟩,
    .inr ⟨by decide, mayBegin_access.seq (begins_head (by decide))⟩, .inr ⟨by decide, begins_function⟩⟩

end Swift

end Outline

end PromptPack
