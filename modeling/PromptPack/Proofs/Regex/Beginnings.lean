import PromptPack.Proofs.Regex.Language
/-!
# How the texts of an expression begin

What the texts of an expression begin with can be told from its first parts: those that may be left out, and the first
one that may not. Where no beginning of what is left is such a text, nothing matches (`run_eq_none`).
-/

namespace PromptPack.Regex

/-- A property of texts that is one of their beginnings. -/
structure Beginning where
  holds : List Char → Bool
  lasts : ∀ cs ds, holds cs = true → holds (cs ++ ds) = true

/-- Each text of the expression begins so. -/
def Begins (b : Beginning) (r : Regex) : Prop := ∀ cs, r.Spells cs → b.holds cs = true

/-- Each text of the expression that is not empty begins so. -/
def MayBegin (b : Beginning) (r : Regex) : Prop := ∀ cs, r.Spells cs → cs = [] ∨ b.holds cs = true

variable {b : Beginning} {r s : Regex}

theorem Begins.left (h : Begins b r) : Begins b (r ++ s) := by
  rintro _ ⟨front, back, hfront, -, rfl⟩
  exact b.lasts front back (h front hfront)

theorem MayBegin.seq (h : MayBegin b r) (h' : Begins b s) : Begins b (r ++ s) := by
  rintro _ ⟨front, back, hfront, hback, rfl⟩
  rcases h front hfront with rfl | hholds
  · exact h' back hback
  · exact b.lasts front back hholds

theorem MayBegin.append (h : MayBegin b r) (h' : MayBegin b s) : MayBegin b (r ++ s) := by
  rintro _ ⟨front, back, hfront, hback, rfl⟩
  rcases h front hfront with rfl | hholds
  · exact h' back hback
  · exact .inr (b.lasts front back hholds)

theorem mayBegin_wordBoundary : MayBegin b wordBoundary := fun _ hcs => .inl hcs

theorem mayBegin_lineStart : MayBegin b lineStart := fun _ hcs => .inl hcs

theorem Begins.maybe (h : Begins b r) : MayBegin b (maybe r) := by
  rintro cs (hcs | hcs)
  · exact .inr (h cs hcs)
  · exact .inl hcs

theorem Begins.star {greed : Greed} (h : Begins b r) : MayBegin b (star greed r) := by
  rintro _ ⟨pieces, hpieces, rfl⟩
  cases pieces with
  | nil => exact .inl rfl
  | cons piece pieces => exact .inr (b.lasts piece _ (h piece (hpieces piece List.mem_cons_self)))

theorem Begins.plus {greed : Greed} (h : Begins b r) : Begins b (plus greed r) := h.left

theorem Begins.group {name : String} (h : Begins b r) : Begins b (group name r) := h

theorem Begins.alt (h : Begins b r) (h' : Begins b s) : Begins b (r ||| s) := by
  rintro cs (hcs | hcs)
  · exact h cs hcs
  · exact h' cs hcs

theorem begins_oneOf {rs : List Regex} (h : ∀ r ∈ rs, Begins b r) : Begins b (oneOf rs) := by
  fun_induction oneOf rs with
  | case1 =>
    rintro _ ⟨c, hc, -⟩
    cases hc
  | case2 r => exact h r (List.mem_singleton_self r)
  | case3 r rs _ ih =>
    rw [List.forall_mem_cons] at h
    exact h.1.alt (ih h.2)

theorem begins_char {test : Char → Bool} (h : ∀ c, test c = true → b.holds [c] = true) : Begins b (char test) := by
  rintro _ ⟨c, hc, rfl⟩
  exact h c hc

theorem spells_ofChars {chars cs : List Char} (h : (ofChars chars).Spells cs) : cs = chars := by
  fun_induction ofChars chars generalizing cs with
  | case1 => exact h
  | case2 c =>
    obtain ⟨x, hx, rfl⟩ := h
    rw [beq_iff_eq.1 hx]
  | case3 c chars _ ih =>
    obtain ⟨_, back, ⟨x, hx, rfl⟩, hback, rfl⟩ := h
    rw [beq_iff_eq.1 hx, ih hback]
    rfl

theorem begins_literal {text : String} (h : b.holds text.toList = true) : Begins b (literal text) := by
  intro cs hcs
  rw [spells_ofChars hcs]
  exact h

/-- A sign in front of all letters has no other case, so a text in either case begins with it. -/
theorem begins_anyCase {text : String} {c : Char} {chars : List Char} (htext : text.toList = c :: chars)
    (hc : c.val.toNat < 65) (h : b.holds [c] = true) : Begins b (anyCase text) := by
  intro cs hcs
  rw [anyCase, htext] at hcs
  obtain ⟨_, back, ⟨x, hx, rfl⟩, -, rfl⟩ := hcs
  rw [(sameLetter_iff_of_left hc).1 hx]
  exact b.lasts [c] back h

/-- A text that begins with a match begins as the expression does. -/
theorem Begins.holds_of_mem_findAll {text : List Char} {m : Match} (h : Begins b r) (hm : m ∈ r.findAll text)
    (hstart : m.start = 0) : b.holds text = true := by
  obtain ⟨hspells, -, front, back, haround⟩ := exists_around_of_mem_findAll hm
  rw [haround.start] at hstart
  rw [haround.eq, String.utf8Len_eq_zero.1 hstart, List.nil_append]
  exact b.lasts m.text back (h m.text hspells)

/-! ## Where nothing matches -/

theorem run_eq_none {α : Type} {c : Cursor} (h : Begins b r) (hc : ∀ cs ds, c.rest = cs ++ ds → b.holds cs = false)
    (g : Groups) (k : Cursor → Groups → Option α) : r.run c g k = none := by
  cases hrun : r.run c g k with
  | none => rfl
  | some a =>
    obtain ⟨cs, d, g', hcs, hread, -⟩ := run_reads r c g k a hrun
    have hcs' := h cs hcs
    rw [hc cs d.rest hread.rest_eq] at hcs'
    cases hcs'

/-! ## Blanks in front -/

/-- The text begins with a character that is not blank. -/
def beginsVisibly : List Char → Bool
  | [] => false
  | x :: _ => !Text.isBlank x

def visible : Beginning where
  holds := beginsVisibly
  lasts cs ds h := by
    cases cs with
    | nil => cases h
    | cons x cs => exact h

theorem begins_visible_char {test : Char → Bool} (h : ∀ c, Text.isBlank c = true → test c = false) :
    Begins visible (char test) := by
  refine begins_char fun c hc => ?_
  change (!Text.isBlank c) = true
  rw [Bool.not_eq_true']
  by_contra hblank
  rw [h c (by simpa using hblank)] at hc
  cases hc

/-- Nothing that begins visibly matches in front of a blank. -/
theorem Begins.run_blank {α : Type} {c : Cursor} {x : Char} (h : Begins visible r) (hx : c.rest.head? = some x)
    (hblank : Text.isBlank x = true) (g : Groups) (k : Cursor → Groups → Option α) : r.run c g k = none := by
  refine run_eq_none h (fun cs ds hrest => ?_) g k
  cases cs with
  | nil => rfl
  | cons y cs =>
    rw [hrest] at hx
    obtain rfl : y = x := Option.some.inj hx
    change (!Text.isBlank y) = false
    rw [hblank, Bool.not_true]

theorem Begins.matchAt?_blank {c : Cursor} {x : Char} (h : Begins visible r) (hx : c.rest.head? = some x)
    (hblank : Text.isBlank x = true) : matchAt? r c = none := by
  rw [matchAt?, h.run_blank hx hblank]

/-- Passing over blanks stops at the first place that is not followed by one, if that is the only place to go on. -/
theorem run_blanks {α : Type} {k : Cursor → Groups → Option α} {c d : Cursor} {front : List Char}
    (hk : ∀ c g x, c.rest.head? = some x → Text.isBlank x = true → k c g = none) (hc : c.room = c.rest.length)
    (hread : c.Reads front d) (hfront : ∀ x ∈ front, Text.isBlank x = true)
    (hd : ∀ x, d.rest.head? = some x → Text.isBlank x = false) (g : Groups) : blanks.run c g k = k d g := by
  have hfuel (fuel : Nat) (hfuel : front.length ≤ fuel) : iterate (run blank) .greedy k fuel c g = k d g := by
    induction hread generalizing fuel with
    | nil c =>
      -- No blank is left, so the step fails.
      cases fuel with
      | zero => rw [iterate]
      | succ fuel =>
        have hstep (k' : Cursor → Groups → Option α) : run blank c g k' = none := by
          unfold blank
          simp only [run, Cursor.next?]
          cases hrest : c.rest with
          | nil => rfl
          | cons x xs =>
            have hx := hd x (by rw [hrest]; rfl)
            simp [hx]
        rw [iterate, hstep]
        rfl
    | @cons c e d x cs hn hread ih =>
      rw [List.forall_mem_cons] at hfront
      obtain ⟨hrest, -, hroom⟩ := Cursor.rest_of_next? hn
      have hlength : c.rest.length = e.rest.length + 1 := by rw [hrest, List.length_cons]
      cases fuel with
      | zero => cases hfuel
      | succ fuel =>
        have hstep : run blank c g (iterate.onward (run blank) .greedy k fuel c) = k d g := by
          unfold blank
          simp only [run, hn, hfront.1, if_true]
          unfold iterate.onward
          rw [if_pos (by omega)]
          exact ih (by omega) hfront.2 hd fuel (Nat.le_of_succ_le_succ hfuel)
        have hstop : k c g = none := hk c g x (by rw [hrest]; rfl) hfront.1
        rw [iterate, hstep, hstop]
        cases k d g <;> rfl
  have hlength := congrArg List.length hread.rest_eq
  rw [List.length_append] at hlength
  exact hfuel c.room (by omega)

end PromptPack.Regex
