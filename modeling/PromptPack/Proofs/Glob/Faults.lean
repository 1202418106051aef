import PromptPack.Glob.Pattern
/-!
# What is wrong with a text that is no glob

A glob is read from its front, and only its brackets, braces and backslashes can be wrong. What is wrong first depends on
the text and on the number of groups that are open around it, and not on the tokens read so far (`firstFault_readTokens`).
So a text can be taken up where a glob ends (`FirstFault.append`), and of a glob for the contents of a directory the part
in front of the ending is a glob as well, or the ending's slash belongs to a backslash (`FirstFault.soundOrEscaping`).
-/

namespace PromptPack.Glob

/-- The characters that have to fit together. -/
def special : List Char := ['[', '\x7b', '\x7d', '\\']

/-- The first fault of a text that is read inside so many open groups, if it has one. -/
inductive FirstFault : Nat → List Char → Option Cause → Prop
  | done : FirstFault 0 [] none
  | unclosed (depth : Nat) : FirstFault (depth + 1) [] (some .unclosedChoice)
  | plain {depth : Nat} {c : Char} {cs : List Char} {fault : Option Cause} (free : c ∉ special)
      (rest : FirstFault depth cs fault) : FirstFault depth (c :: cs) fault
  | escape {depth : Nat} {cs : List Char} {fault : Option Cause} (c : Char) (rest : FirstFault depth cs fault) :
      FirstFault depth ('\\' :: c :: cs) fault
  | dangling (depth : Nat) : FirstFault depth ['\\'] (some .danglingEscape)
  | ofClass {depth : Nat} {t : Token} {cs cs' : List Char} {fault : Option Cause} (read : readClass cs = .ok (t, cs'))
      (rest : FirstFault depth cs' fault) : FirstFault depth ('[' :: cs) fault
  | badClass {cs : List Char} {e : Cause} (depth : Nat) (read : readClass cs = .error e) :
      FirstFault depth ('[' :: cs) (some e)
  | opened {depth : Nat} {cs : List Char} {fault : Option Cause} (rest : FirstFault (depth + 1) cs fault) :
      FirstFault depth ('\x7b' :: cs) fault
  | closed {depth : Nat} {cs : List Char} {fault : Option Cause} (rest : FirstFault depth cs fault) :
      FirstFault (depth + 1) ('\x7d' :: cs) fault
  | unopened (cs : List Char) : FirstFault 0 ('\x7d' :: cs) (some .unopenedChoice)

variable {depth n : Nat} {c : Char} {cs front rest : List Char} {fault fault' : Option Cause} {r : Reader}

/-- A text has one first fault or none. -/
theorem FirstFault.unique (h : FirstFault depth cs fault) (h' : FirstFault depth cs fault') : fault = fault' := by
  induction h with
  | done => cases h'; rfl
  | unclosed => cases h'; rfl
  | plain free _ ih =>
    cases h' with
    | plain _ rest => exact ih rest
    | _ => simp [special] at free
  | escape c _ ih =>
    cases h' with
    | plain free => simp [special] at free
    | escape _ rest => exact ih rest
  | dangling =>
    cases h' with
    | plain free => simp [special] at free
    | dangling => rfl
  | ofClass read _ ih =>
    cases h' with
    | plain free => simp [special] at free
    | ofClass read' rest =>
      obtain ⟨-, rfl⟩ := Prod.mk.inj (Except.ok.inj (read.symm.trans read'))
      exact ih rest
    | badClass _ read' => cases read.symm.trans read'
  | badClass _ read =>
    cases h' with
    | plain free => simp [special] at free
    | ofClass read' => cases read.symm.trans read'
    | badClass _ read' => exact congrArg some (Except.error.inj (read.symm.trans read'))
  | opened _ ih =>
    cases h' with
    | plain free => simp [special] at free
    | opened rest => exact ih rest
  | closed _ ih =>
    cases h' with
    | plain free => simp [special] at free
    | closed rest => exact ih rest
  | unopened =>
    cases h' with
    | plain free => simp [special] at free
    | unopened => rfl

theorem FirstFault.append_plain (h : FirstFault depth rest fault) (hfront : ∀ c ∈ front, c ∉ special) :
    FirstFault depth (front ++ rest) fault := by
  induction front with
  | nil => exact h
  | cons c front ih =>
    rw [List.forall_mem_cons] at hfront
    exact .plain hfront.1 (ih hfront.2)

theorem FirstFault.of_plain (h : FirstFault depth (front ++ rest) fault) (hfront : ∀ c ∈ front, c ∉ special) :
    FirstFault depth rest fault := by
  induction front with
  | nil => exact h
  | cons c front ih =>
    rw [List.forall_mem_cons] at hfront
    refine ih ?_ hfront.2
    rw [List.cons_append] at h
    generalize front ++ rest = cs at h ⊢
    cases h with
    | plain _ h => exact h
    | _ => exact absurd hfront.1 (by simp [special])

/-! ## Classes -/

/-- What stands behind the closing bracket of a class has no part in it. -/
theorem exists_body_of_readRanges {first : Bool} {st : ClassState} {ranges : List (Char × Char)}
    (h : readRanges first st cs = .ok (ranges, rest)) :
    ∃ body, cs = body ++ ']' :: rest ∧ ∀ more, readRanges first st (body ++ ']' :: more) = .ok (ranges, more) := by
  fun_induction readRanges first st cs with
  | case1 => cases h
  | case2 first st c cs hclose =>
    obtain ⟨rfl, rfl⟩ := Prod.mk.inj (Except.ok.inj h)
    obtain ⟨hc, -⟩ := Bool.and_eq_true_iff.1 hclose
    obtain rfl := eq_of_beq hc
    exact ⟨[], rfl, fun more => by rw [List.nil_append, readRanges, if_pos hclose]⟩
  | case3 first st c cs hclose hdash ih =>
    obtain ⟨body, rfl, hbody⟩ := ih h
    exact ⟨c :: body, rfl, fun more => by rw [List.cons_append, readRanges, if_neg hclose, if_pos hdash, hbody]⟩
  | case4 => cases h
  | case5 first st c cs hclose hdash low high others hranges hopen hlt ih =>
    obtain ⟨body, rfl, hbody⟩ := ih h
    refine ⟨c :: body, rfl, fun more => ?_⟩
    rw [List.cons_append, readRanges, if_neg hclose, if_neg hdash]
    simp only [hopen, hranges, if_neg hlt, hbody]
  | case6 first st c cs hclose hdash hsingle ih =>
    obtain ⟨body, rfl, hbody⟩ := ih h
    refine ⟨c :: body, rfl, fun more => ?_⟩
    rw [List.cons_append, readRanges, if_neg hclose, if_neg hdash]
    split
    · rename_i low high others hopen hranges
      exact absurd hranges (hsingle _ _ _ hopen)
    · exact hbody more

theorem readClass_of_ne (hbang : c ≠ '!') (hcaret : c ≠ '^') (cs : List Char) : readClass (c :: cs) =
    (readRanges true ⟨[], false⟩ (c :: cs)).map fun x => (.oneOf false x.1, x.2) := by
  simp [readClass, hbang, hcaret]

theorem exists_body_of_readClass {t : Token} (h : readClass cs = .ok (t, rest)) :
    ∃ body, cs = body ++ ']' :: rest ∧ ∀ more, readClass (body ++ ']' :: more) = .ok (t, more) := by
  have hread {negated : Bool} {cs : List Char}
      (hcs : (readRanges true ⟨[], false⟩ cs).map (fun x => (Token.oneOf negated x.1, x.2)) = .ok (t, rest)) :
      ∃ body, cs = body ++ ']' :: rest ∧ ∀ more,
        (readRanges true ⟨[], false⟩ (body ++ ']' :: more)).map (fun x => (Token.oneOf negated x.1, x.2)) =
          .ok (t, more) := by
    cases hranges : readRanges true ⟨[], false⟩ cs with
    | error e =>
      rw [hranges] at hcs
      cases hcs
    | ok x =>
      rw [hranges] at hcs
      obtain ⟨rfl, rfl⟩ := Prod.mk.inj (Except.ok.inj hcs)
      obtain ⟨body, heq, hbody⟩ := exists_body_of_readRanges hranges
      exact ⟨body, heq, fun more => by rw [hbody]; rfl⟩
  cases cs with
  | nil => cases h
  | cons c cs =>
    by_cases hbang : c = '!'
    · subst hbang
      obtain ⟨body, rfl, hbody⟩ := hread h
      exact ⟨'!' :: body, rfl, hbody⟩
    · by_cases hcaret : c = '^'
      · subst hcaret
        obtain ⟨body, rfl, hbody⟩ := hread h
        exact ⟨'^' :: body, rfl, hbody⟩
      · rw [readClass_of_ne hbang hcaret] at h
        obtain ⟨body, heq, hbody⟩ := hread h
        refine ⟨body, heq, fun more => ?_⟩
        -- The first character stays, so there still is no sign.
        cases body with
        | nil => exact (readClass_of_ne (by decide) (by decide) more).trans (hbody more)
        | cons d body =>
          obtain rfl := (List.cons.inj heq).1
          exact (readClass_of_ne hbang hcaret _).trans (hbody more)

/-! ## Reading -/

/-- A star, with what it takes along, changes nothing about the open groups. -/
theorem Reader.star_takes (r : Reader) (prev : Option Char) (cs : List Char) :
    (r.star prev cs).1.frames = r.frames ∧ ∃ taken, (∀ c ∈ taken, c ∉ special) ∧ cs = taken ++ (r.star prev cs).2.2 := by
  have hstar : ∀ c ∈ ['*'], c ∉ special := by simp [special]
  have hslash : ∀ c ∈ ['*', '/'], c ∉ special := by simp [special]
  unfold Reader.star
  split
  · dsimp only
    split
    · split
      · exact ⟨rfl, _, hstar, rfl⟩
      · exact ⟨rfl, _, hslash, rfl⟩
      · exact ⟨rfl, _, hstar, rfl⟩
    · split
      · exact ⟨rfl, _, hstar, rfl⟩
      · split
        · refine ⟨?_, _, hstar, rfl⟩
          split <;> rfl
        · refine ⟨?_, _, hslash, rfl⟩
          split <;> rfl
        · split
          · refine ⟨?_, _, hstar, rfl⟩
            split <;> rfl
          · exact ⟨rfl, _, hstar, rfl⟩
  · exact ⟨rfl, [], nofun, rfl⟩

/-- What a computation fails with, if it fails. -/
def failure? {ε α : Type} : Except ε α → Option ε
  | .ok _ => none
  | .error e => some e

/-- The fuel that is enough for a text is enough for what is left behind the first character. -/
theorem length_le_of_append {c : Char} {cs taken rest : List Char} (hcs : cs = taken ++ rest)
    (hfuel : (c :: cs).length ≤ n + 1) : rest.length ≤ n := by
  subst hcs
  simp only [List.length_cons, List.length_append] at hfuel
  omega

/-- The reader finds the first fault. -/
theorem firstFault_readTokens (prev : Option Char) (hfuel : cs.length ≤ n) :
    FirstFault r.frames.length cs (failure? (readTokens false n r prev cs)) := by
  have hplain {c : Char} (hclass : ¬ (c == '[') = true) (hopen : ¬ (c == '\x7b') = true)
      (hclose : ¬ (c == '\x7d') = true) (hescape : ¬ (c == '\\') = true) : c ∉ special := by
    simp_all [special]
  have hlit {c d : Char} (h : (c == d) = true) (hd : d ∉ special) : c ∉ special := eq_of_beq h ▸ hd
  -- One case a branch of the reader; the tokens that it has read so far never matter, only how many groups are open.
  fun_induction readTokens false n r prev cs with
  | case1 _ _ r hframes =>
    rw [List.isEmpty_iff.1 hframes]
    exact .done
  | case2 _ _ r hframes =>
    obtain ⟨f, frames, hf⟩ := List.exists_cons_of_ne_nil (mt List.isEmpty_iff.2 hframes)
    rw [hf]
    exact .unclosed frames.length
  | case3 cs r prev hne => exact absurd (List.eq_nil_of_length_eq_zero (Nat.le_zero.1 hfuel)) hne
  | case4 n r prev c cs hc ih =>
    exact .plain (hlit hc (by decide)) (ih (Nat.le_of_succ_le_succ hfuel))
  | case5 n r prev c cs hc hc' r' last rest hstar ih =>
    obtain ⟨hframes, taken, htaken, hcs⟩ := r.star_takes prev cs
    rw [hstar] at hframes hcs
    dsimp only at hframes hcs
    have hrest := ih (length_le_of_append hcs hfuel)
    rw [hcs]
    exact .plain (hlit hc' (by decide)) (.append_plain (hframes ▸ hrest) htaken)
  | case6 n r prev c cs hc hc' hc'' t rest hclass ih =>
    obtain ⟨body, hcs, -⟩ := exists_body_of_readClass hclass
    have hcs : cs = (body ++ [']']) ++ rest := by rw [hcs, List.append_assoc, List.singleton_append]
    rw [eq_of_beq hc'']
    exact .ofClass hclass (ih (length_le_of_append hcs hfuel))
  | case7 _ _ _ _ _ _ _ _ e _ hlenient => cases hlenient
  | case8 n r prev c cs hc hc' hc'' e hclass =>
    rw [eq_of_beq hc'']
    exact .badClass _ hclass
  | case9 n r prev c cs hc hc' hc'' hopen ih =>
    obtain rfl := eq_of_beq hopen
    exact .opened (ih (Nat.le_of_succ_le_succ hfuel))
  | case10 n r prev c cs hc hc' hc'' hopen hclose hframes =>
    rw [eq_of_beq hclose, hframes]
    exact .unopened cs
  | case11 n r prev c cs hc hc' hc'' hopen hclose f frames hframes all ih =>
    obtain rfl := eq_of_beq hclose
    rw [hframes]
    exact .closed (ih (Nat.le_of_succ_le_succ hfuel))
  | case12 n r prev c cs hc hc' hc'' hopen hclose hcomma hframes ih =>
    exact .plain (hlit hcomma (by decide)) (ih (Nat.le_of_succ_le_succ hfuel))
  | case13 n r prev c cs hc hc' hc'' hopen hclose hcomma f frames hframes ih =>
    rw [hframes]
    exact .plain (hlit hcomma (by decide)) (ih (Nat.le_of_succ_le_succ hfuel))
  | case14 n r prev c hc hc' hc'' hopen hclose hcomma hescape =>
    rw [eq_of_beq hescape]
    exact .dangling _
  | case15 n r prev c hc hc' hc'' hopen hclose hcomma hescape d rest ih =>
    rw [eq_of_beq hescape]
    simp only [List.length_cons] at hfuel
    exact .escape d (ih (by omega))
  | case16 n r prev c cs hc hc' hc'' hopen hclose hcomma hescape ih =>
    exact .plain (hplain hc'' hopen hclose hescape) (ih (Nat.le_of_succ_le_succ hfuel))

variable {glob : String} {cause : Cause}

theorem firstFault_parse (glob : String) : (∃ p, parse glob = .ok p ∧ FirstFault 0 glob.toList none) ∨
    ∃ cause, parse glob = .error ⟨glob, cause⟩ ∧ FirstFault 0 glob.toList (some cause) := by
  have h := firstFault_readTokens (r := ⟨[], []⟩) none (Nat.le_refl glob.toList.length)
  rw [parse, parseWith]
  cases hread : readTokens false glob.toList.length ⟨[], []⟩ none glob.toList with
  | ok p =>
    rw [hread] at h
    exact .inl ⟨p, rfl, h⟩
  | error cause =>
    rw [hread] at h
    exact .inr ⟨cause, rfl, h⟩

/-- The globs are the texts without a fault. -/
theorem exists_parse_iff : (∃ p, parse glob = .ok p) ↔ FirstFault 0 glob.toList none := by
  rcases firstFault_parse glob with ⟨p, hp, hnone⟩ | ⟨cause, hcause, hfault⟩
  · exact iff_of_true ⟨p, hp⟩ hnone
  · refine iff_of_false ?_ fun hnone => nomatch hnone.unique hfault
    rintro ⟨p, hp⟩
    cases hp.symm.trans hcause

/-- A text that is no glob is refused for its first fault. -/
theorem parse_eq_error (h : FirstFault 0 glob.toList (some cause)) : parse glob = .error ⟨glob, cause⟩ := by
  rcases firstFault_parse glob with ⟨p, -, hnone⟩ | ⟨cause', hcause, hfault⟩
  · cases h.unique hnone
  · obtain rfl := Option.some.inj (h.unique hfault)
    exact hcause

/-! ## Texts one behind the other -/

/-- A text can be taken up where a glob ends. -/
theorem FirstFault.append (h : FirstFault depth front none) (hrest : FirstFault 0 rest fault) :
    FirstFault depth (front ++ rest) fault := by
  generalize hnone : (none : Option Cause) = o at h
  induction h with
  | done => exact hrest
  | unclosed | dangling | badClass | unopened => cases hnone
  | plain free _ ih => exact .plain free (ih hnone)
  | escape c _ ih => exact .escape c (ih hnone)
  | ofClass read _ ih =>
    obtain ⟨body, rfl, hbody⟩ := exists_body_of_readClass read
    rw [List.cons_append, List.append_assoc]
    exact .ofClass (hbody _) (ih hnone)
  | opened _ ih => exact .opened (ih hnone)
  | closed _ ih => exact .closed (ih hnone)

/-- The text has no fault, or none but for a backslash at its end. -/
def SoundOrEscaping (depth : Nat) (front : List Char) : Prop :=
  FirstFault depth front none ∨ ∃ before, front = before ++ ['\\'] ∧ FirstFault depth before none

theorem SoundOrEscaping.prepend {depth' : Nat} (h : SoundOrEscaping depth rest) (front : List Char)
    (hfront : ∀ cs, FirstFault depth cs none → FirstFault depth' (front ++ cs) none) :
    SoundOrEscaping depth' (front ++ rest) := by
  rcases h with hsound | ⟨before, rfl, hbefore⟩
  · exact .inl (hfront rest hsound)
  · exact .inr ⟨front ++ before, (List.append_assoc _ _ _).symm, hfront before hbefore⟩

/-- A class that is closed in front of the ending for contents does not reach into it. -/
theorem exists_body_of_readClass_contents {t : Token} (h : readClass (front ++ ['/', '*', '*']) = .ok (t, rest)) :
    ∃ body back, front = body ++ ']' :: back ∧ rest = back ++ ['/', '*', '*'] ∧
      ∀ more, readClass (body ++ ']' :: more) = .ok (t, more) := by
  obtain ⟨body, heq, hbody⟩ := exists_body_of_readClass h
  rcases List.append_eq_append_iff.1 heq with ⟨back, rfl, hback⟩ | ⟨back, rfl, hback⟩
  · have hmem : ']' ∈ ['/', '*', '*'] := by simp [hback]
    exact absurd hmem (by decide)
  · cases back with
    | nil => cases hback
    | cons c back =>
      obtain ⟨rfl, rfl⟩ := List.cons.inj hback
      exact ⟨body, back, rfl, rfl, hbody⟩

/-- Of a glob for contents the part in front of the ending is a glob, or a backslash at its end takes the slash of the
ending, and then the part in front of the backslash is one. -/
theorem FirstFault.soundOrEscaping (h : FirstFault depth (front ++ ['/', '*', '*']) none) :
    SoundOrEscaping depth front := by
  have hstars : ∀ c ∈ ['*', '*'], c ∉ special := by simp [special]
  generalize hcs : front ++ ['/', '*', '*'] = cs at h
  generalize hnone : (none : Option Cause) = o at h
  induction h generalizing front with
  | done => simp at hcs
  | unclosed | dangling | badClass | unopened => cases hnone
  | plain free rest ih =>
    cases front with
    | nil =>
      obtain ⟨-, rfl⟩ := List.cons.inj hcs
      subst hnone
      exact .inl (rest.of_plain hstars)
    | cons c front =>
      rw [List.cons_append, List.cons.injEq] at hcs
      obtain ⟨rfl, hcs⟩ := hcs
      exact (ih hcs hnone).prepend [_] fun _ => .plain free
  | escape c rest ih =>
    rcases front with _ | ⟨d, _ | ⟨c', front⟩⟩
    · cases hcs
    · simp only [List.cons_append, List.nil_append, List.cons.injEq] at hcs
      obtain ⟨rfl, -, rfl⟩ := hcs
      subst hnone
      exact .inr ⟨[], rfl, rest.of_plain hstars⟩
    · simp only [List.cons_append, List.cons.injEq] at hcs
      obtain ⟨rfl, rfl, hcs⟩ := hcs
      exact (ih hcs hnone).prepend ['\\', _] fun _ => .escape _
  | ofClass read rest ih =>
    cases front with
    | nil => cases hcs
    | cons c front =>
      rw [List.cons_append, List.cons.injEq] at hcs
      obtain ⟨rfl, rfl⟩ := hcs
      obtain ⟨body, back, rfl, rfl, hbody⟩ := exists_body_of_readClass_contents read
      have hclass : ('[' :: (body ++ ']' :: back)) = ('[' :: (body ++ [']'])) ++ back := by simp
      rw [hclass]
      refine (ih rfl hnone).prepend _ fun cs hcs => ?_
      rw [List.cons_append, List.append_assoc]
      exact .ofClass (hbody cs) hcs
  | opened rest ih =>
    cases front with
    | nil => cases hcs
    | cons c front =>
      rw [List.cons_append, List.cons.injEq] at hcs
      obtain ⟨rfl, hcs⟩ := hcs
      exact (ih hcs hnone).prepend [_] fun _ => .opened
  | closed rest ih =>
    cases front with
    | nil => cases hcs
    | cons c front =>
      rw [List.cons_append, List.cons.injEq] at hcs
      obtain ⟨rfl, hcs⟩ := hcs
      exact (ih hcs hnone).prepend [_] fun _ => .closed

end PromptPack.Glob
