import PromptPack.Data.Json
/-!
# The grammar of JSON

The texts of JSON as RFC 8259 has them, with the data that each stands for. Every production tells what it reads
and what is left behind it. A whole number stands for itself, however large it is; one with a fraction or an
exponent stands for the nearest double. The grammar leaves open how far a number or the blanks in front of
something reach.

No text stands for two different data (`Denotes.unique`): what a production leaves open is settled by what has to
stand behind it. Blanks end where something starts, a number ends where neither a digit nor a point nor an exponent
follows, and all other productions tell each other apart by their first characters.
-/

namespace PromptPack.Json

section

open Decimal (natOf)

/-! ## Blanks and marks -/

/-- Blanks, of which there may be none. -/
def Blanks (cs r : List Char) : Prop := ∃ ws, cs = ws ++ r ∧ ∀ c ∈ ws, isBlank c = true

/-- A mark of the structure, such as a comma, with blanks in front of it. -/
def Mark (c : Char) (cs r : List Char) : Prop := Blanks cs (c :: r)

/-! ## Numbers -/

/-- At least one digit. -/
structure Digits (cs ds r : List Char) : Prop where
  eq : cs = ds ++ r
  nonempty : ds ≠ []
  isDigit : ∀ c ∈ ds, c.isDigit = true

/-- A minus sign, or nothing. -/
inductive Minus : List Char → Bool → List Char → Prop
  | none (r : List Char) : Minus r false r
  | minus (r : List Char) : Minus ('-' :: r) true r

/-- The digits behind a point, or nothing. -/
inductive Fraction : List Char → List Char → List Char → Prop
  | none (r : List Char) : Fraction r [] r
  | digits {cs ds r : List Char} (h : Digits cs ds r) : Fraction ('.' :: cs) ds r

/-- The sign of an exponent. -/
inductive PowerSign : List Char → Bool → List Char → Prop
  | none (r : List Char) : PowerSign r false r
  | plus (r : List Char) : PowerSign ('+' :: r) false r
  | minus (r : List Char) : PowerSign ('-' :: r) true r

def signed (negative : Bool) (ds : List Char) : Int := if negative then -(natOf ds : Int) else natOf ds

/-- An exponent, or nothing. -/
inductive Power : List Char → Option Int → List Char → Prop
  | none (r : List Char) : Power r none r
  | some {e : Char} {cs t ds r : List Char} {negative : Bool} (letter : e = 'e' ∨ e = 'E')
    (sign : PowerSign cs negative t) (digits : Digits t ds r) : Power (e :: cs) (some (signed negative ds)) r

/-- The number with the given parts. -/
def numberOf (negative : Bool) (whole fraction : List Char) (power : Option Int) : Data :=
  match fraction, power with
  | [], none => .int (signed negative whole)
  | _, _ => .real (Decimal.nearest negative (natOf (whole ++ fraction)) (power.getD 0 - fraction.length))

/-- A number; no zero stands in front of its other digits. -/
inductive Number : List Char → Data → List Char → Prop
  | parts {cs t u v r whole fraction : List Char} {negative : Bool} {power : Option Int} (minus : Minus cs negative t)
    (digits : Digits t whole u) (zero : whole.head? = some '0' → whole = ['0']) (point : Fraction u fraction v)
    (exponent : Power v power r) : Number cs (numberOf negative whole fraction power) r

/-! ## Texts -/

/-- The characters of a text, up to and with the closing quote. -/
inductive Chars : List Char → List Char → List Char → Prop
  | close (r : List Char) : Chars ('"' :: r) [] r
  | plain {c : Char} {cs s r : List Char} (quote : c ≠ '"') (backslash : c ≠ '\\') (control : 32 ≤ c.toNat)
    (rest : Chars cs s r) : Chars (c :: cs) (c :: s) r
  | escape {e c : Char} {cs s r : List Char} (letter : escapedChar? e = some c) (rest : Chars cs s r) :
    Chars ('\\' :: e :: cs) (c :: s) r
  | code {n : Nat} {cs t s r : List Char} (digits : hexWord? cs = some (n, t)) (scalar : n < 0xD800 ∨ 0xE000 ≤ n)
    (rest : Chars t s r) : Chars ('\\' :: 'u' :: cs) (Char.ofNat n :: s) r
  | pair {n m : Nat} {cs t u s r : List Char} (digits : hexWord? cs = some (n, '\\' :: 'u' :: t))
    (digits' : hexWord? t = some (m, u)) (high : 0xD800 ≤ n ∧ n < 0xDC00) (low : 0xDC00 ≤ m ∧ m < 0xE000)
    (rest : Chars u s r) :
    Chars ('\\' :: 'u' :: cs) (Char.ofNat (0x10000 + (n - 0xD800) * 0x400 + (m - 0xDC00)) :: s) r

/-! ## Values -/

mutual

/-- A value. -/
inductive Value : List Char → Data → List Char → Prop
  | null (r : List Char) : Value ('n' :: 'u' :: 'l' :: 'l' :: r) .null r
  | yes (r : List Char) : Value ('t' :: 'r' :: 'u' :: 'e' :: r) (.bool true) r
  | no (r : List Char) : Value ('f' :: 'a' :: 'l' :: 's' :: 'e' :: r) (.bool false) r
  | number {cs r : List Char} {d : Data} (h : Number cs d r) : Value cs d r
  | text {cs s r : List Char} (h : Chars cs s r) : Value ('"' :: cs) (.text (String.ofList s)) r
  | emptyList {cs r : List Char} (h : Mark ']' cs r) : Value ('[' :: cs) (.list []) r
  | list {cs r : List Char} {ds : List Data} (h : Items cs ds r) : Value ('[' :: cs) (.list ds) r
  | emptyRecord {cs r : List Char} (h : Mark '\x7d' cs r) : Value ('\x7b' :: cs) (.record []) r
  | record {cs r : List Char} {fs : List (String × Data)} (h : Fields cs fs r) : Value ('\x7b' :: cs) (.record fs) r

/-- A value with the blanks in front of it. -/
inductive Item : List Char → Data → List Char → Prop
  | value {cs t r : List Char} {d : Data} (blanks : Blanks cs t) (value : Value t d r) : Item cs d r

/-- At least one item, and the closing bracket. -/
inductive Items : List Char → List Data → List Char → Prop
  | last {cs t r : List Char} {d : Data} (item : Item cs d t) (close : Mark ']' t r) : Items cs [d] r
  | more {cs t u r : List Char} {d : Data} {ds : List Data} (item : Item cs d t) (comma : Mark ',' t u)
    (rest : Items u ds r) : Items cs (d :: ds) r

/-- A name in quotes, and its value behind a colon. -/
inductive Field : List Char → String × Data → List Char → Prop
  | named {cs t u v r k : List Char} {d : Data} (quote : Mark '"' cs t) (key : Chars t k u) (colon : Mark ':' u v)
    (item : Item v d r) : Field cs (String.ofList k, d) r

/-- At least one field, and the closing brace. -/
inductive Fields : List Char → List (String × Data) → List Char → Prop
  | last {cs t r : List Char} {f : String × Data} (field : Field cs f t) (close : Mark '\x7d' t r) : Fields cs [f] r
  | more {cs t u r : List Char} {f : String × Data} {fs : List (String × Data)} (field : Field cs f t)
    (comma : Mark ',' t u) (rest : Fields u fs r) : Fields cs (f :: fs) r

end

/-- The text is JSON, and stands for the data. -/
def Denotes (text : String) (d : Data) : Prop := ∃ cs r, Blanks text.toList cs ∧ Value cs d r ∧ Blanks r []

end

variable {cs r r' s s' t t' ds ds' : List Char} {c c' : Char} {d d' : Data}

/-! ## Where blanks end -/

theorem skipBlanks_append {ws : List Char} (h : ∀ c ∈ ws, isBlank c = true) (r : List Char) :
    skipBlanks (ws ++ r) = skipBlanks r :=
  List.dropWhile_append_of_pos h

/-- Nothing blank stands in front. -/
def Starts (cs : List Char) : Prop := skipBlanks cs = cs

theorem starts_cons (h : isBlank c = false) (r : List Char) : Starts (c :: r) := List.dropWhile_cons_of_neg (by simp [h])

theorem Blanks.unique (h : Blanks cs r) (h' : Blanks cs r') (hr : Starts r) (hr' : Starts r') : r = r' := by
  obtain ⟨ws, rfl, hws⟩ := h
  obtain ⟨ws', heq, hws'⟩ := h'
  have hskip := congrArg skipBlanks heq
  rwa [skipBlanks_append hws, skipBlanks_append hws', hr, hr'] at hskip

theorem Mark.unique (h : Mark c cs r) (h' : Mark c' cs r') (hc : isBlank c = false) (hc' : isBlank c' = false) :
    c = c' ∧ r = r' :=
  List.cons.inj (Blanks.unique h h' (starts_cons hc r) (starts_cons hc' r'))

/-! ## Numbers are read in one way -/

/-- What can stand behind a number, so that the number does not go on. -/
def Ends (r : List Char) : Prop := ∀ c ∈ r.head?, c.isDigit = false ∧ c ≠ '.' ∧ c ≠ 'e' ∧ c ≠ 'E'

theorem ends_nil : Ends [] := by simp [Ends]

theorem ends_cons_iff : Ends (c :: r) ↔ c.isDigit = false ∧ c ≠ '.' ∧ c ≠ 'e' ∧ c ≠ 'E' := by simp [Ends]

theorem ends_of_isBlank (h : isBlank c = true) (r : List Char) : Ends (c :: r) := by
  simp only [isBlank, Bool.or_eq_true, beq_iff_eq] at h
  rcases h with ((rfl | rfl) | rfl) | rfl <;> exact ends_cons_iff.2 (by decide)

theorem ends_append {ws : List Char} (h : ∀ c ∈ ws, isBlank c = true) (hr : Ends r) : Ends (ws ++ r) := by
  cases ws with
  | nil => exact hr
  | cons c ws => exact ends_of_isBlank (h c List.mem_cons_self) _

theorem Blanks.ends (h : Blanks cs r) (hr : Ends r) : Ends cs := by
  obtain ⟨ws, rfl, hws⟩ := h
  exact ends_append hws hr

theorem Mark.ends (h : Mark c cs r) (hc : c = ',' ∨ c = ']' ∨ c = '\x7d') : Ends cs := by
  refine Blanks.ends h ?_
  rcases hc with rfl | rfl | rfl <;> exact ends_cons_iff.2 (by decide)

/-- Reading of digits goes on up to something that is no digit. -/
theorem Digits.unique (h : Digits cs ds r) (h' : Digits cs ds' r') (hr : ∀ c ∈ r.head?, c.isDigit = false)
    (hr' : ∀ c ∈ r'.head?, c.isDigit = false) : ds = ds' ∧ r = r' := by
  have hspan {ds r : List Char} (hds : ∀ c ∈ ds, c.isDigit = true) (hr : ∀ c ∈ r.head?, c.isDigit = false) :
      (ds ++ r).takeWhile Char.isDigit = ds := by
    rw [List.takeWhile_append_of_pos hds]
    cases r with
    | nil => simp
    | cons c r => simp [hr c (by simp)]
  have hds : ds = ds' := by
    rw [← hspan h.isDigit hr, ← h.eq, h'.eq, hspan h'.isDigit hr']
  subst hds
  exact ⟨rfl, List.append_cancel_left (h.eq.symm.trans h'.eq)⟩

theorem Digits.exists_cons (h : Digits cs ds r) : ∃ c cs', cs = c :: cs' ∧ c.isDigit = true := by
  obtain ⟨rfl, hne, hds⟩ := h
  obtain ⟨c, ds', rfl⟩ := List.exists_cons_of_ne_nil hne
  exact ⟨c, ds' ++ r, rfl, hds c List.mem_cons_self⟩

theorem not_digits (hc : c.isDigit = false) : ¬ Digits (c :: cs) ds r := by
  intro h
  obtain ⟨e, _, heq, he⟩ := h.exists_cons
  obtain ⟨rfl, -⟩ := List.cons.inj heq
  simp [hc] at he

/-- A minus sign is no digit, so the digits behind tell whether there is one. -/
theorem Minus.unique {negative negative' : Bool} (h : Minus cs negative t) (h' : Minus cs negative' t')
    (ht : Digits t ds r) (ht' : Digits t' ds' r') : negative = negative' ∧ t = t' := by
  cases h with
  | none =>
    cases h' with
    | none => exact ⟨rfl, rfl⟩
    | minus => exact absurd ht (not_digits (by decide))
  | minus =>
    cases h' with
    | none => exact absurd ht' (not_digits (by decide))
    | minus => exact ⟨rfl, rfl⟩

theorem PowerSign.unique {negative negative' : Bool} (h : PowerSign cs negative t) (h' : PowerSign cs negative' t')
    (ht : Digits t ds r) (ht' : Digits t' ds' r') : negative = negative' ∧ t = t' := by
  cases h with
  | none =>
    cases h' with
    | none => exact ⟨rfl, rfl⟩
    | plus => exact absurd ht (not_digits (by decide))
    | minus => exact absurd ht (not_digits (by decide))
  | plus =>
    cases h' with
    | none => exact absurd ht' (not_digits (by decide))
    | plus => exact ⟨rfl, rfl⟩
  | minus =>
    cases h' with
    | none => exact absurd ht' (not_digits (by decide))
    | minus => exact ⟨rfl, rfl⟩

theorem Power.unique {power power' : Option Int} (h : Power cs power r) (h' : Power cs power' r') (hr : Ends r)
    (hr' : Ends r') : power = power' ∧ r = r' := by
  cases h with
  | none =>
    cases h' with
    | none => exact ⟨rfl, rfl⟩
    | some letter => rcases letter with rfl | rfl <;> simp [Ends] at hr
  | some letter sign digits =>
    cases h' with
    | none => rcases letter with rfl | rfl <;> simp [Ends] at hr'
    | some _ sign' digits' =>
      obtain ⟨rfl, rfl⟩ := sign.unique sign' digits digits'
      obtain ⟨rfl, rfl⟩ := digits.unique digits' (fun c hc => (hr c hc).1) (fun c hc => (hr' c hc).1)
      exact ⟨rfl, rfl⟩

/-- In front of an exponent, or of what ends the number, there is neither a digit nor a point. -/
theorem Power.head {power : Option Int} (h : Power cs power r) (hr : Ends r) :
    ∀ c ∈ cs.head?, c.isDigit = false ∧ c ≠ '.' := by
  cases h with
  | none => exact fun c hc => ⟨(hr c hc).1, (hr c hc).2.1⟩
  | some letter =>
    rintro c ⟨⟩
    rcases letter with rfl | rfl <;> decide

theorem Fraction.unique (h : Fraction cs ds t) (h' : Fraction cs ds' t')
    (ht : ∀ c ∈ t.head?, c.isDigit = false ∧ c ≠ '.') (ht' : ∀ c ∈ t'.head?, c.isDigit = false ∧ c ≠ '.') :
    ds = ds' ∧ t = t' := by
  cases h with
  | none =>
    cases h' with
    | none => exact ⟨rfl, rfl⟩
    | digits => simp at ht
  | digits h =>
    cases h' with
    | none => simp at ht'
    | digits h' => exact h.unique h' (fun c hc => (ht c hc).1) (fun c hc => (ht' c hc).1)

theorem Fraction.head (h : Fraction cs ds t) (ht : ∀ c ∈ t.head?, c.isDigit = false ∧ c ≠ '.') :
    ∀ c ∈ cs.head?, c.isDigit = false := by
  cases h with
  | none => exact fun c hc => (ht c hc).1
  | digits => simp

theorem Number.unique (h : Number cs d r) (h' : Number cs d' r') (hr : Ends r) (hr' : Ends r') :
    d = d' ∧ r = r' := by
  obtain ⟨minus, digits, _, point, exponent⟩ := h
  obtain ⟨minus', digits', _, point', exponent'⟩ := h'
  have hhead := exponent.head hr
  have hhead' := exponent'.head hr'
  obtain ⟨rfl, rfl⟩ := minus.unique minus' digits digits'
  obtain ⟨rfl, rfl⟩ := digits.unique digits' (point.head hhead) (point'.head hhead')
  obtain ⟨rfl, rfl⟩ := point.unique point' hhead hhead'
  obtain ⟨rfl, rfl⟩ := exponent.unique exponent' hr hr'
  exact ⟨rfl, rfl⟩

/-- A number starts like no other value. -/
theorem Number.exists_cons (h : Number cs d r) : ∃ c cs', cs = c :: cs' ∧ (c = '-' ∨ c.isDigit = true) := by
  obtain ⟨minus, digits, -, -, -⟩ := h
  cases minus with
  | none =>
    obtain ⟨c, cs', rfl, hc⟩ := digits.exists_cons
    exact ⟨c, cs', rfl, .inr hc⟩
  | minus => exact ⟨_, _, rfl, .inl rfl⟩

theorem not_number (hminus : c ≠ '-') (hdigit : c.isDigit = false) : ¬ Number (c :: cs) d r := by
  intro h
  obtain ⟨e, _, heq, he⟩ := h.exists_cons
  obtain ⟨rfl, -⟩ := List.cons.inj heq
  rcases he with rfl | he
  · exact hminus rfl
  · simp [hdigit] at he

theorem Number.starts (h : Number cs d r) : Starts cs := by
  obtain ⟨c, cs, rfl, -⟩ := h.exists_cons
  refine starts_cons (Bool.eq_false_iff.mpr fun hblank => ?_) cs
  simp only [isBlank, Bool.or_eq_true, beq_iff_eq] at hblank
  rcases hblank with ((rfl | rfl) | rfl) | rfl <;> exact absurd h (not_number (by decide) (by decide))

/-! ## Texts are read in one way -/

theorem Chars.unique (h : Chars cs s r) (h' : Chars cs s' r') : s = s' ∧ r = r' := by
  -- Behind a backslash the letter tells a short escape from a code, and the code a scalar from half of a pair.
  induction h generalizing s' with
  | close r =>
    cases h' with
    | close => exact ⟨rfl, rfl⟩
    | plain quote => exact absurd rfl quote
  | plain quote backslash control rest ih =>
    cases h' with
    | close => exact absurd rfl quote
    | plain _ _ _ rest' =>
      obtain ⟨rfl, rfl⟩ := ih rest'
      exact ⟨rfl, rfl⟩
    | escape => exact absurd rfl backslash
    | code => exact absurd rfl backslash
    | pair => exact absurd rfl backslash
  | escape letter rest ih =>
    cases h' with
    | plain _ backslash => exact absurd rfl backslash
    | escape letter' rest' =>
      obtain ⟨rfl, rfl⟩ := ih rest'
      obtain rfl := Option.some.inj (letter.symm.trans letter')
      exact ⟨rfl, rfl⟩
    | code => simp [escapedChar?] at letter
    | pair => simp [escapedChar?] at letter
  | code digits scalar rest ih =>
    cases h' with
    | plain _ backslash => exact absurd rfl backslash
    | escape letter' => simp [escapedChar?] at letter'
    | code digits' _ rest' =>
      obtain ⟨rfl, rfl⟩ := Prod.mk.inj (Option.some.inj (digits.symm.trans digits'))
      obtain ⟨rfl, rfl⟩ := ih rest'
      exact ⟨rfl, rfl⟩
    | pair digits' _ high _ =>
      obtain ⟨rfl, -⟩ := Prod.mk.inj (Option.some.inj (digits.symm.trans digits'))
      omega
  | pair digits digits₂ high low rest ih =>
    cases h' with
    | plain _ backslash => exact absurd rfl backslash
    | escape letter' => simp [escapedChar?] at letter'
    | code digits' scalar =>
      obtain ⟨rfl, -⟩ := Prod.mk.inj (Option.some.inj (digits.symm.trans digits'))
      omega
    | pair digits' digits₂' _ _ rest' =>
      obtain ⟨rfl, htail⟩ := Prod.mk.inj (Option.some.inj (digits.symm.trans digits'))
      obtain rfl : _ = _ := (List.cons.inj (List.cons.inj htail).2).2
      obtain ⟨rfl, rfl⟩ := Prod.mk.inj (Option.some.inj (digits₂.symm.trans digits₂'))
      obtain ⟨rfl, rfl⟩ := ih rest'
      exact ⟨rfl, rfl⟩

/-! ## Values are read in one way -/

theorem Value.starts (h : Value cs d r) : Starts cs := by
  cases h with
  | number h => exact h.starts
  | _ => exact starts_cons (by decide) _

theorem Value.of_quote (h : Value ('"' :: cs) d r) : ∃ s, d = .text (String.ofList s) ∧ Chars cs s r := by
  cases h with
  | number h => exact absurd h (not_number (by decide) (by decide))
  | text h => exact ⟨_, rfl, h⟩

theorem Value.of_bracket (h : Value ('[' :: cs) d r) :
    d = .list [] ∧ Mark ']' cs r ∨ ∃ ds, d = .list ds ∧ Items cs ds r := by
  cases h with
  | number h => exact absurd h (not_number (by decide) (by decide))
  | emptyList h => exact .inl ⟨rfl, h⟩
  | list h => exact .inr ⟨_, rfl, h⟩

theorem Value.of_brace (h : Value ('\x7b' :: cs) d r) :
    d = .record [] ∧ Mark '\x7d' cs r ∨ ∃ fs, d = .record fs ∧ Fields cs fs r := by
  cases h with
  | number h => exact absurd h (not_number (by decide) (by decide))
  | emptyRecord h => exact .inl ⟨rfl, h⟩
  | record h => exact .inr ⟨_, rfl, h⟩

/-- A letter starts a value in one way only. -/
theorem Value.of_letter (h : Value (c :: cs) d r) (h' : Value (c :: cs) d' r') (hc : c = 'n' ∨ c = 't' ∨ c = 'f') :
    d = d' ∧ r = r' := by
  have hnumber {d : Data} {r : List Char} : ¬ Number (c :: cs) d r := by
    rcases hc with rfl | rfl | rfl <;> exact not_number (by decide) (by decide)
  cases h with
  | number h => exact absurd h hnumber
  | null => cases h' with
    | null => exact ⟨rfl, rfl⟩
    | number h' => exact absurd h' hnumber
  | yes => cases h' with
    | yes => exact ⟨rfl, rfl⟩
    | number h' => exact absurd h' hnumber
  | no => cases h' with
    | no => exact ⟨rfl, rfl⟩
    | number h' => exact absurd h' hnumber
  | _ => simp at hc

theorem Value.of_number (h : Value (c :: cs) d r) (hc : c = '-' ∨ c.isDigit = true) : Number (c :: cs) d r := by
  cases h with
  | number h => exact h
  | _ => simp [Char.isDigit] at hc

theorem Item.not_close (h : Item cs d r) : ¬ Mark ']' cs r' := by
  rintro hclose
  obtain ⟨blanks, value⟩ := h
  obtain rfl := blanks.unique hclose value.starts (starts_cons (by decide) _)
  cases value with
  | number h => exact not_number (by decide) (by decide) h

theorem Items.not_close {ds : List Data} (h : Items cs ds r) : ¬ Mark ']' cs r' := by
  cases h with
  | last item => exact item.not_close
  | more item => exact item.not_close

theorem Field.not_close {f : String × Data} (h : Field cs f r) : ¬ Mark '\x7d' cs r' := by
  rintro hclose
  obtain ⟨quote, -, -, -⟩ := h
  exact absurd (quote.unique hclose (by decide) (by decide)).1 (by decide)

theorem Fields.not_close {fs : List (String × Data)} (h : Fields cs fs r) : ¬ Mark '\x7d' cs r' := by
  cases h with
  | last field => exact field.not_close
  | more field => exact field.not_close

mutual

/-- Up to something that ends it, a value is read in one way only. -/
theorem Value.unique : ∀ {cs r r' : List Char} {d d' : Data}, Value cs d r → Value cs d' r' → Ends r → Ends r' →
    d = d' ∧ r = r'
  | _, _, _, _, _, .null _, h', _, _ => Value.of_letter (.null _) h' (by simp)
  | _, _, _, _, _, .yes _, h', _, _ => Value.of_letter (.yes _) h' (by simp)
  | _, _, _, _, _, .no _, h', _, _ => Value.of_letter (.no _) h' (by simp)
  | _, _, _, _, _, .number h, h', hr, hr' => by
    obtain ⟨c, cs, rfl, hc⟩ := h.exists_cons
    exact h.unique (h'.of_number hc) hr hr'
  | _, _, _, _, _, .text h, h', _, _ => by
    obtain ⟨s', rfl, hs'⟩ := h'.of_quote
    obtain ⟨rfl, rfl⟩ := h.unique hs'
    exact ⟨rfl, rfl⟩
  | _, _, _, _, _, .emptyList h, h', _, _ => by
    obtain ⟨rfl, hclose⟩ | ⟨ds', rfl, hitems⟩ := h'.of_bracket
    · exact ⟨rfl, (h.unique hclose (by decide) (by decide)).2⟩
    · exact absurd h hitems.not_close
  | _, _, _, _, _, .list h, h', _, _ => by
    obtain ⟨rfl, hclose⟩ | ⟨ds', rfl, hitems⟩ := h'.of_bracket
    · exact absurd hclose h.not_close
    · obtain ⟨rfl, rfl⟩ := Items.unique h hitems
      exact ⟨rfl, rfl⟩
  | _, _, _, _, _, .emptyRecord h, h', _, _ => by
    obtain ⟨rfl, hclose⟩ | ⟨fs', rfl, hfields⟩ := h'.of_brace
    · exact ⟨rfl, (h.unique hclose (by decide) (by decide)).2⟩
    · exact absurd h hfields.not_close
  | _, _, _, _, _, .record h, h', _, _ => by
    obtain ⟨rfl, hclose⟩ | ⟨fs', rfl, hfields⟩ := h'.of_brace
    · exact absurd hclose h.not_close
    · obtain ⟨rfl, rfl⟩ := Fields.unique h hfields
      exact ⟨rfl, rfl⟩
termination_by _ _ _ d => (sizeOf d, 0)

theorem Item.unique : ∀ {cs r r' : List Char} {d d' : Data}, Item cs d r → Item cs d' r' → Ends r → Ends r' →
    d = d' ∧ r = r'
  | _, _, _, _, _, .value blanks value, h', hr, hr' => by
    obtain ⟨blanks', value'⟩ := h'
    obtain rfl := blanks.unique blanks' value.starts value'.starts
    exact Value.unique value value' hr hr'
termination_by _ _ _ d => (sizeOf d, 1)

theorem Items.unique : ∀ {cs r r' : List Char} {ds ds' : List Data}, Items cs ds r → Items cs ds' r' →
    ds = ds' ∧ r = r'
  | _, _, _, _, _, .last item close, h' => by
    cases h' with
    | last item' close' =>
      obtain ⟨rfl, rfl⟩ := Item.unique item item' (close.ends (by simp)) (close'.ends (by simp))
      obtain ⟨-, rfl⟩ := close.unique close' (by decide) (by decide)
      exact ⟨rfl, rfl⟩
    | more item' comma' rest' =>
      obtain ⟨rfl, rfl⟩ := Item.unique item item' (close.ends (by simp)) (comma'.ends (by simp))
      exact absurd (close.unique comma' (by decide) (by decide)).1 (by decide)
  | _, _, _, _, _, .more item comma rest, h' => by
    cases h' with
    | last item' close' =>
      obtain ⟨rfl, rfl⟩ := Item.unique item item' (comma.ends (by simp)) (close'.ends (by simp))
      exact absurd (comma.unique close' (by decide) (by decide)).1 (by decide)
    | more item' comma' rest' =>
      obtain ⟨rfl, rfl⟩ := Item.unique item item' (comma.ends (by simp)) (comma'.ends (by simp))
      obtain ⟨-, rfl⟩ := comma.unique comma' (by decide) (by decide)
      obtain ⟨rfl, rfl⟩ := Items.unique rest rest'
      exact ⟨rfl, rfl⟩
termination_by _ _ _ ds => (sizeOf ds, 0)

theorem Field.unique : ∀ {cs r r' : List Char} {f f' : String × Data}, Field cs f r → Field cs f' r' →
    Ends r → Ends r' → f = f' ∧ r = r'
  | _, _, _, _, _, .named quote key colon item, h', hr, hr' => by
    obtain ⟨quote', key', colon', item'⟩ := h'
    obtain ⟨-, rfl⟩ := quote.unique quote' (by decide) (by decide)
    obtain ⟨rfl, rfl⟩ := key.unique key'
    obtain ⟨-, rfl⟩ := colon.unique colon' (by decide) (by decide)
    obtain ⟨rfl, rfl⟩ := Item.unique item item' hr hr'
    exact ⟨rfl, rfl⟩
termination_by _ _ _ f => (sizeOf f, 0)

theorem Fields.unique : ∀ {cs r r' : List Char} {fs fs' : List (String × Data)}, Fields cs fs r → Fields cs fs' r' →
    fs = fs' ∧ r = r'
  | _, _, _, _, _, .last field close, h' => by
    cases h' with
    | last field' close' =>
      obtain ⟨rfl, rfl⟩ := Field.unique field field' (close.ends (by simp)) (close'.ends (by simp))
      obtain ⟨-, rfl⟩ := close.unique close' (by decide) (by decide)
      exact ⟨rfl, rfl⟩
    | more field' comma' rest' =>
      obtain ⟨rfl, rfl⟩ := Field.unique field field' (close.ends (by simp)) (comma'.ends (by simp))
      exact absurd (close.unique comma' (by decide) (by decide)).1 (by decide)
  | _, _, _, _, _, .more field comma rest, h' => by
    cases h' with
    | last field' close' =>
      obtain ⟨rfl, rfl⟩ := Field.unique field field' (comma.ends (by simp)) (close'.ends (by simp))
      exact absurd (comma.unique close' (by decide) (by decide)).1 (by decide)
    | more field' comma' rest' =>
      obtain ⟨rfl, rfl⟩ := Field.unique field field' (comma.ends (by simp)) (comma'.ends (by simp))
      obtain ⟨-, rfl⟩ := comma.unique comma' (by decide) (by decide)
      obtain ⟨rfl, rfl⟩ := Fields.unique rest rest'
      exact ⟨rfl, rfl⟩
termination_by _ _ _ fs => (sizeOf fs, 0)

end

/-- A text stands for one piece of data at most. -/
theorem Denotes.unique {text : String} (h : Denotes text d) (h' : Denotes text d') : d = d' := by
  obtain ⟨cs, r, blanks, value, behind⟩ := h
  obtain ⟨cs', r', blanks', value', behind'⟩ := h'
  obtain rfl := blanks.unique blanks' value.starts value'.starts
  exact (value.unique value' (behind.ends ends_nil) (behind'.ends ends_nil)).1

end PromptPack.Json
