import Mathlib.Data.List.Basic
import PromptPack.Proofs.Json.Grammar
import PromptPack.Proofs.Text.Numerals
/-!
# What is printed is JSON

The text that is printed for data stands for that data by the grammar (`denotes_pretty`), unless there are doubles in
the data: these would be printed with as many digits as tell them from their neighbours.
-/

namespace PromptPack.Json

open Decimal (natOf)

variable {cs r : List Char} {d : Data}

/-- Data without doubles. -/
inductive Exact : Data → Prop
  | null : Exact .null
  | bool (b : Bool) : Exact (.bool b)
  | int (n : Int) : Exact (.int n)
  | text (s : String) : Exact (.text s)
  | list {ds : List Data} (items : ∀ d ∈ ds, Exact d) : Exact (.list ds)
  | record {fs : List (String × Data)} (fields : ∀ f ∈ fs, Exact f.2) : Exact (.record fs)

/-! ## Whole numbers -/

theorem natOf_toDigits (n : Nat) : natOf (Nat.toDigits 10 n) = n := by
  have h : Nat.ofDigitChars 10 (Nat.toDigits 10 n) 0 = n := Nat.ofDigitChars_ten_toDigits
  rwa [Nat.ofDigitChars_eq_foldl] at h

theorem digits_toDigits (n : Nat) (r : List Char) : Digits (Nat.toDigits 10 n ++ r) (Nat.toDigits 10 n) r where
  eq := rfl
  nonempty := Nat.toDigits_ne_nil
  isDigit _ hc := Nat.isDigit_of_mem_toDigits (by decide) (by decide) hc

/-- A whole number is printed as JSON has it. -/
theorem number_toString (n : Int) (r : List Char) : Number ((toString n).toList ++ r) (.int n) r := by
  rw [Int.toString_eq_repr, Int.repr_eq_if]
  split
  case isTrue hn =>
    have h := Number.parts (.none _) (digits_toDigits n.toNat r) Text.head_toDigits (.none r) (.none r)
    have hvalue : signed false (Nat.toDigits 10 n.toNat) = n := by
      simp [signed, natOf_toDigits, Int.toNat_of_nonneg hn]
    rwa [numberOf, hvalue, ← Nat.toList_repr] at h
  case isFalse hn =>
    have h := Number.parts (.minus _) (digits_toDigits (-n).toNat r) Text.head_toDigits (.none r) (.none r)
    have hvalue : signed true (Nat.toDigits 10 (-n).toNat) = n := by
      simp [signed, natOf_toDigits]
      omega
    rw [numberOf, hvalue, ← Nat.toList_repr] at h
    simpa using h

/-! ## Texts -/

theorem hexValue?_hexDigit {n : Nat} (h : n < 16) : hexValue? (hexDigit n) = some n := by
  revert n
  decide

theorem hexWord?_hexDigit {n : Nat} (h : n < 256) (cs : List Char) :
    hexWord? ('0' :: '0' :: hexDigit (n / 16) :: hexDigit (n % 16) :: cs) = some (n, cs) := by
  have hzero : hexValue? '0' = some 0 := by decide
  have hhigh := hexValue?_hexDigit (show n / 16 < 16 by omega)
  have hlow := hexValue?_hexDigit (Nat.mod_lt n (by decide : 16 > 0))
  simp only [hexWord?, hzero, hhigh, hlow, Option.bind_eq_bind, Option.bind_some, Option.pure_def, Option.some.injEq,
    Prod.mk.injEq, and_true]
  omega

/-- Whatever a character is, it is read back from what is printed for it. -/
theorem chars_escapeChar (c : Char) {s : List Char} (h : Chars cs s r) : Chars (escapeChar c ++ cs) (c :: s) r := by
  unfold escapeChar
  simp only [beq_iff_eq]
  split_ifs with hquote hbackslash hb hf hn hr ht hcontrol
  case pos => subst hquote; exact .escape rfl h
  case pos => subst hbackslash; exact .escape rfl h
  case pos => subst hb; exact .escape rfl h
  case pos => subst hf; exact .escape rfl h
  case pos => subst hn; exact .escape rfl h
  case pos => subst hr; exact .escape rfl h
  case pos => subst ht; exact .escape rfl h
  case pos =>
    have hcode := Chars.code (hexWord?_hexDigit (show c.toNat < 256 by omega) cs) (.inl (by omega)) h
    rwa [Char.ofNat_toNat] at hcode
  case neg => exact .plain hquote hbackslash (by omega) h

theorem chars_flatMap_escapeChar (s r : List Char) : Chars (s.flatMap escapeChar ++ '"' :: r) s r := by
  induction s with
  | nil => exact .close r
  | cons c s ih =>
    rw [List.flatMap_cons, List.append_assoc]
    exact chars_escapeChar c ih

theorem value_quote (s : String) (r : List Char) : Value (quote s ++ r) (.text s) r := by
  have h := Value.text (chars_flatMap_escapeChar s.toList r)
  simpa [quote] using h

/-! ## Lists and records -/

theorem isBlank_of_mem_newline (depth : Nat) : ∀ c ∈ newline depth, isBlank c = true := by
  simp [newline, isBlank]

theorem blanks_newline (depth : Nat) (r : List Char) : Blanks (newline depth ++ r) r :=
  ⟨newline depth, rfl, isBlank_of_mem_newline depth⟩

theorem blanks_refl (r : List Char) : Blanks r r := ⟨[], rfl, by simp⟩

/-- The data is read back from what is printed for it, at every depth and whatever follows. -/
def Printed (d : Data) : Prop := ∀ depth r, Value (render depth d ++ r) d r

theorem items_render {ds : List Data} (hd : Printed d) (hds : ∀ e ∈ ds, Printed e) (m n : Nat) (r : List Char) :
    Items (newline m ++ render m d ++ renderItems m ds ++ newline n ++ [']'] ++ r) (d :: ds) r := by
  induction ds generalizing d with
  | nil =>
    simp only [renderItems, List.append_assoc, List.nil_append]
    exact .last (.value (blanks_newline m _) (hd m _)) (blanks_newline n _)
  | cons e es ih =>
    have hrest := ih (hds e List.mem_cons_self) fun e he => hds e (List.mem_cons_of_mem _ he)
    simp only [renderItems, List.append_assoc, List.cons_append] at hrest ⊢
    exact .more (.value (blanks_newline m _) (hd m _)) (blanks_refl _) hrest

theorem field_render {d : Data} (hd : Printed d) (k : String) (m : Nat) (r : List Char) :
    Field (newline m ++ quote k ++ [':', ' '] ++ render m d ++ r) (k, d) r := by
  have hblank : Blanks (' ' :: (render m d ++ r)) (render m d ++ r) := ⟨[' '], rfl, by simp [isBlank]⟩
  have h := Field.named (blanks_newline m _) (chars_flatMap_escapeChar k.toList _) (blanks_refl _)
    (.value hblank (hd m r))
  simpa [quote] using h

theorem fields_render {fs : List (String × Data)} (hd : Printed d) (hfs : ∀ f ∈ fs, Printed f.2) (k : String)
    (m n : Nat) (r : List Char) :
    Fields (newline m ++ quote k ++ [':', ' '] ++ render m d ++ renderFields m fs ++ newline n ++ ['\x7d'] ++ r)
      ((k, d) :: fs) r := by
  induction fs generalizing k d with
  | nil =>
    have h := Fields.last (field_render hd k m _) (blanks_newline n ('\x7d' :: r))
    simpa [renderFields] using h
  | cons f fs ih =>
    obtain ⟨k', e⟩ := f
    have hrest := ih (hfs (k', e) List.mem_cons_self) (fun f hf => hfs f (List.mem_cons_of_mem _ hf)) k'
    have h := Fields.more (field_render hd k m _) (blanks_refl _) hrest
    simpa [renderFields] using h

theorem Exact.printed (h : Exact d) : Printed d := by
  induction h with
  | null => exact fun _ r => .null r
  | bool b =>
    cases b with
    | false => exact fun _ r => .no r
    | true => exact fun _ r => .yes r
  | int n => exact fun _ r => .number (number_toString n r)
  | text s => exact fun _ r => value_quote s r
  | @list ds _ ih =>
    intro depth r
    cases ds with
    | nil => exact .emptyList (blanks_refl _)
    | cons d ds =>
      have h := items_render (ih d List.mem_cons_self) (fun e he => ih e (List.mem_cons_of_mem _ he)) (depth + 1) depth r
      exact .list h
  | @record fs _ ih =>
    intro depth r
    cases fs with
    | nil => exact .emptyRecord (blanks_refl _)
    | cons f fs =>
      obtain ⟨k, d⟩ := f
      have h := fields_render (ih (k, d) List.mem_cons_self) (fun f hf => ih f (List.mem_cons_of_mem _ hf)) k
        (depth + 1) depth r
      exact .record h

/-- The text that is printed for data without doubles stands for that data. -/
theorem denotes_pretty (h : Exact d) : Denotes (pretty d) d := by
  refine ⟨render 0 d, [], ?_, ?_, blanks_refl []⟩
  · simp [pretty, blanks_refl]
  · simpa using h.printed 0 []

end PromptPack.Json
