import Mathlib
import PromptPack.Proofs.Glob.Faults
import PromptPack.Proofs.Glob.Names
/-!
# Globs for the contents of a directory

A glob that ends in a slash and a double star asks for what is in a directory. Without that ending it compiles to the
same pattern but for a double star at the end (`exists_parse_contents`), so where the shorter glob matches a directory the
longer one matches everything below it. The one pattern that goes its own way is a double star alone: it matches every
path, and with another double star at the end it no longer does.
-/

namespace PromptPack.Glob

/-! ## Matching on -/

section

variable {k k' : List UInt8 → Bool} {more : List UInt8}

/-- What holds of the bytes that are left goes on to hold of them with more behind. -/
def Extends (k k' : List UInt8 → Bool) (more : List UInt8) : Prop := ∀ s, k s = true → k' (s ++ more) = true

theorem Extends.afterSlash (h : Extends k k' more) : Extends (afterSlash k) (afterSlash k') more := by
  intro s hs
  induction s with
  | nil => cases hs
  | cons b s ih =>
    rw [Glob.afterSlash, Bool.or_eq_true, Bool.and_eq_true] at hs
    rw [List.cons_append, Glob.afterSlash, Bool.or_eq_true, Bool.and_eq_true]
    exact hs.imp (And.imp_right (h s)) ih

theorem Extends.someEnd (h : Extends k k' more) : Extends (someEnd k) (someEnd k') more := by
  have hfirst {s : List UInt8} (hs : k' s = true) : Glob.someEnd k' s = true := by
    cases s <;> simp [Glob.someEnd, hs]
  intro s hs
  induction s with
  | nil => exact hfirst (h [] hs)
  | cons b s ih =>
    rw [Glob.someEnd, Bool.or_eq_true] at hs
    rcases hs with hhere | hlater
    · exact hfirst (h _ hhere)
    · rw [List.cons_append, Glob.someEnd, ih hlater, Bool.or_true]

theorem Extends.afterRun (h : Extends k k' more) : Extends (afterRun k) (afterRun k') more := by
  have hfirst {s : List UInt8} (hs : k' s = true) : Glob.afterRun k' s = true := by
    cases s <;> simp [Glob.afterRun, hs]
  intro s hs
  induction s with
  | nil => exact hfirst (h [] hs)
  | cons b s ih =>
    rw [Glob.afterRun, Bool.or_eq_true, Bool.and_eq_true] at hs
    rcases hs with hhere | ⟨hb, hlater⟩
    · exact hfirst (h _ hhere)
    · rw [List.cons_append, Glob.afterRun, hb, ih hlater, Bool.and_true, Bool.or_true]

theorem dropBytes?_append {bs s rest : List UInt8} (h : dropBytes? bs s = some rest) (more : List UInt8) :
    dropBytes? bs (s ++ more) = some (rest ++ more) := by
  induction bs generalizing s with
  | nil => simpa [dropBytes?] using h
  | cons b bs ih =>
    cases s with
    | nil => cases h
    | cons c s =>
      rw [dropBytes?] at h
      rw [List.cons_append, dropBytes?]
      split at h
      · rename_i hb
        rw [if_pos hb, ih h]
      · cases h

mutual

theorem Token.run?_extends :
    ∀ (t : Token) {k k' : List UInt8 → Bool}, Extends k k' more → Extends (t.run? k) (t.run? k') more
  | .literal c, _, _, h, s, hs => by
    rw [Token.run?] at hs ⊢
    cases hdrop : dropBytes? (bytesOf c) s with
    | none =>
      rw [hdrop] at hs
      cases hs
    | some rest =>
      rw [hdrop] at hs
      rw [dropBytes?_append hdrop]
      exact h rest hs
  | .single, _, _, h, s, hs => by
    cases s with
    | nil => cases hs
    | cons b s =>
      simp only [Token.run?, Bool.and_eq_true, List.cons_append] at hs ⊢
      exact hs.imp_right (h s)
  | .run, _, _, h, s, hs => h.afterRun s hs
  | .leading, _, _, h, s, hs => by
    rw [Token.run?, Bool.or_eq_true] at hs ⊢
    exact hs.imp (h s) (h.afterSlash s)
  | .trailing, _, _, h, s, hs => by
    cases s with
    | nil => cases hs
    | cons b s =>
      simp only [Token.run?, Bool.and_eq_true, List.cons_append] at hs ⊢
      exact hs.imp_right (h.someEnd s)
  | .middle, _, _, h, s, hs => by
    cases s with
    | nil => cases hs
    | cons b s =>
      simp only [Token.run?, Bool.and_eq_true, Bool.or_eq_true, List.cons_append] at hs ⊢
      exact hs.imp_right (Or.imp (h s) (h.afterSlash s))
  | .oneOf negated ranges, _, _, h, s, hs => by
    cases s with
    | nil => cases hs
    | cons b s =>
      simp only [Token.run?, Bool.and_eq_true, List.cons_append] at hs ⊢
      exact hs.imp_right (h s)
  | .choice branches, _, _, h, s, hs => by
    rw [Token.run?] at hs ⊢
    split
    · rename_i hvoid
      rw [if_pos hvoid] at hs
      exact h s hs
    · rename_i hsome
      rw [if_neg hsome] at hs
      exact someBranch_extends branches h s hs

theorem runAll_extends :
    ∀ (ts : List Token) {k k' : List UInt8 → Bool}, Extends k k' more → Extends (runAll k ts) (runAll k' ts) more
  | [], _, _, h, s, hs => h s hs
  | t :: ts, _, _, h, s, hs => Token.run?_extends t (runAll_extends ts h) s hs

theorem someBranch_extends :
    ∀ (branches : List (List Token)) {k k' : List UInt8 → Bool}, Extends k k' more →
      Extends (someBranch k branches) (someBranch k' branches) more
  | [], _, _, _, s, hs => by cases hs
  | b :: bs, _, _, h, s, hs => by
    rw [someBranch, Bool.or_eq_true, Bool.and_eq_true] at hs ⊢
    exact hs.imp (And.imp_right (runAll_extends b h s)) (someBranch_extends bs h s)

end

end

theorem runAll_append (k : List UInt8 → Bool) (ts us : List Token) : runAll k (ts ++ us) = runAll (runAll k us) ts := by
  induction ts with
  | nil => rfl
  | cons t ts ih =>
    funext s
    rw [List.cons_append, runAll, runAll, ih]

/-! ## Reading the ending -/

/-- The ending of a glob for the contents of a directory. -/
def contents : List Char := ['/', '*', '*']

/-- A pattern for what is in the directories of another one: with a double star at the end, if that does not stand there
already. -/
def ContentsOf (q p : Pattern) : Prop :=
  q = p ++ [.trailing] ∨ (q = p ∧ (p = [.leading] ∨ ∃ ts, p = ts ++ [.trailing]))

/-- A leading double star has nothing in front of it. -/
def Reader.LeadsFirst (r : Reader) : Prop := ∀ ts, r.tokens = .leading :: ts → ts = []

theorem Reader.LeadsFirst.of_nil {r : Reader} (h : r.tokens = []) : r.LeadsFirst := by
  intro ts hts
  cases h.symm.trans hts

theorem Reader.LeadsFirst.push {t : Token} (ht : t ≠ .leading) (r : Reader) : (r.push t).LeadsFirst := by
  intro ts hts
  exact absurd (List.cons.inj hts).1 ht

/-- The reader with another token for the last one, unless that is a double star which stays one. -/
def Reader.replaceLast (r : Reader) (t : Token) : Reader :=
  match r.tokens with
  | .leading :: _ => r
  | .trailing :: _ => r
  | _ :: ts => { r with tokens := t :: ts }
  | [] => r

theorem Reader.LeadsFirst.replaceLast {r : Reader} (h : r.LeadsFirst) {t : Token} (ht : t ≠ .leading) :
    (r.replaceLast t).LeadsFirst := by
  unfold Reader.replaceLast
  split
  · exact h
  · exact h
  · exact .push ht { r with tokens := _ }
  · exact h

theorem Reader.replaceLast_trailing {r : Reader} (h : r.tokens ≠ []) :
    ∃ t ts, (r.replaceLast .trailing).tokens = t :: ts ∧ (t = .leading ∨ t = .trailing) := by
  unfold Reader.replaceLast
  split
  · rename_i ts htokens
    exact ⟨.leading, ts, htokens, .inl rfl⟩
  · rename_i ts htokens
    exact ⟨.trailing, ts, htokens, .inr rfl⟩
  · exact ⟨.trailing, _, rfl, .inr rfl⟩
  · rename_i hnil
    exact absurd hnil h

theorem Reader.replaceLast_middle {r : Reader} (h : r.tokens ≠ []) :
    (r.replaceLast .middle).tokens ≠ [] ∧ (r.replaceLast .middle).replaceLast .trailing = r.replaceLast .trailing := by
  obtain ⟨t, ts, htokens⟩ := List.exists_cons_of_ne_nil h
  cases t <;> simp [Reader.replaceLast, htokens]

/-- No double star can stand behind the character. -/
def Reader.plainBehind (r : Reader) (prev : Option Char) : Bool :=
  !isSlash prev && (r.frames.isEmpty || !startsBranch prev)

/-- What a pair of stars is, by where it stands. -/
theorem Reader.star_pair (r : Reader) (prev : Option Char) (cs : List Char) : r.star prev ('*' :: cs) =
    if r.tokens = [] then
      match cs with
      | [] => (r.push .leading, some '*', [])
      | c :: rest => if c = '/' then (r.push .leading, some '/', rest) else ((r.push .run).push .run, some '*', cs)
    else if r.plainBehind prev then ((r.push .run).push .run, some '*', cs)
    else
      match cs with
      | [] => (r.replaceLast .trailing, some '*', [])
      | c :: rest =>
        if c = '/' then (r.replaceLast .middle, some '/', rest)
        else if ((c == ',' || c == '\x7d') && !r.frames.isEmpty) = true then (r.replaceLast .trailing, some '*', cs)
        else ((r.push .run).push .run, some '*', cs) := by
  simp only [Reader.star, List.isEmpty_iff]
  split
  · cases cs with
    | nil => rfl
    | cons c rest =>
      by_cases hslash : c = '/'
      · subst hslash
        rfl
      · simp [hslash]
  · unfold Reader.plainBehind
    split
    · rfl
    · cases cs with
      | nil => rfl
      | cons c rest =>
        by_cases hslash : c = '/'
        · subst hslash
          rfl
        · simp only [hslash, if_false]
          rfl

theorem Reader.star_of_ne (r : Reader) (prev : Option Char) {cs : List Char} (h : cs.head? ≠ some '*') :
    r.star prev cs = (r.push .run, some '*', cs) := by
  unfold Reader.star
  split
  · exact absurd rfl h
  · rfl

theorem Reader.LeadsFirst.star {r : Reader} (h : r.LeadsFirst) (prev : Option Char) (cs : List Char) :
    (r.star prev cs).1.LeadsFirst := by
  by_cases hstar : cs.head? = some '*'
  · obtain ⟨cs, rfl⟩ := List.head?_eq_some_iff.1 hstar
    have hplain : ((r.push .run).push .run).LeadsFirst := .push (by simp) _
    have hlead (hempty : r.tokens = []) : (r.push .leading).LeadsFirst := by
      intro ts hts
      rw [← (List.cons.inj hts).2]
      exact hempty
    rw [Reader.star_pair]
    split
    · -- Nothing has been read, so a double star in front comes first.
      rename_i hempty
      split
      · exact hlead hempty
      · split
        · exact hlead hempty
        · exact hplain
    · split
      · exact hplain
      · split
        · exact h.replaceLast (by simp)
        · split
          · exact h.replaceLast (by simp)
          · split
            · exact h.replaceLast (by simp)
            · exact hplain
  · rw [r.star_of_ne prev hstar]
    exact .push (by simp) r

theorem readClass_append {cs rest : List Char} {t : Token} (h : readClass cs = .ok (t, rest)) (more : List Char) :
    readClass (cs ++ more) = .ok (t, rest ++ more) := by
  obtain ⟨body, rfl, hbody⟩ := exists_body_of_readClass h
  rw [List.append_assoc, List.cons_append]
  exact hbody (rest ++ more)

theorem ne_leading_of_readClass {cs rest : List Char} {t : Token} (h : readClass cs = .ok (t, rest)) : t ≠ .leading := by
  unfold readClass at h
  split at h
  rename_i negated body hsign
  cases hranges : readRanges true ⟨[], false⟩ body with
  | error e =>
    rw [hranges] at h
    cases h
  | ok x =>
    rw [hranges] at h
    cases h
    simp

/-- In front of the ending a star is read as it is at the end of a glob, or it makes up a double star together with the
one before it and takes the slash of the ending, and then the double star of the ending adds nothing. -/
theorem Reader.star_contents (r : Reader) (prev : Option Char) (cs : List Char) :
    r.star prev (cs ++ contents) = ((r.star prev cs).1, (r.star prev cs).2.1, (r.star prev cs).2.2 ++ contents) ∨
      ∃ r', r.star prev (cs ++ contents) = (r', some '/', ['*', '*']) ∧ r'.star (some '/') ['*'] = r.star prev cs ∧
        (r.star prev cs).2.2 = [] ∧
          ∃ t ts, (r.star prev cs).1.tokens = t :: ts ∧ (t = .leading ∨ t = .trailing) := by
  have hbehind (r : Reader) : ¬ r.plainBehind (some '/') = true := by simp [Reader.plainBehind, isSlash]
  by_cases hstar : cs.head? = some '*'
  · obtain ⟨cs, rfl⟩ := List.head?_eq_some_iff.1 hstar
    rw [List.cons_append, star_pair, star_pair]
    cases cs with
    | nil =>
      simp only [contents, List.nil_append, if_true]
      split
      · -- The double star is the whole glob so far, and another one in front means the same.
        right
        refine ⟨r.push .leading, rfl, ?_, rfl, .leading, r.tokens, rfl, .inl rfl⟩
        have hne : (r.push .leading).tokens ≠ [] := List.cons_ne_nil _ _
        rw [star_pair, if_neg hne, if_neg (hbehind _)]
        rfl
      · rename_i hne
        split
        · exact .inl rfl
        · -- The double star stands behind a slash, and becomes one in the middle that the ending takes back.
          right
          obtain ⟨hmiddle, htrailing⟩ := Reader.replaceLast_middle hne
          refine ⟨r.replaceLast .middle, rfl, ?_, rfl, Reader.replaceLast_trailing hne⟩
          rw [star_pair, if_neg hmiddle, if_neg (hbehind _), htrailing]
    | cons c cs =>
      left
      simp only [List.cons_append]
      split
      · split <;> rfl
      · split
        · rfl
        · split
          · rfl
          · split <;> rfl
  · left
    rw [r.star_of_ne prev hstar, r.star_of_ne prev]
    cases cs with
    | nil => simp [contents]
    | cons c cs => exact hstar

/-- Reading on over the ending gives a pattern for the contents. -/
theorem exists_readTokens_contents {n : Nat} {r : Reader} {prev : Option Char} {cs : List Char} {p : Pattern}
    (hr : r.LeadsFirst) (h : readTokens false n r prev cs = .ok p) :
    ∃ q, readTokens false (n + 3) r prev (cs ++ contents) = .ok q ∧ ContentsOf q p := by
  fun_induction readTokens false n r prev cs with
  | case1 prev n r hframes =>
    obtain rfl := Except.ok.inj h
    refine ⟨r.tokens.reverse ++ [.trailing], ?_, .inl rfl⟩
    simp [contents, readTokens, Reader.star, Reader.push, isSlash, List.isEmpty_iff.1 hframes]
  | case2 => cases h
  | case3 => cases h
  | case4 n r prev c cs hc ih =>
    obtain ⟨q, hq, hof⟩ := ih (.push (by simp) r) h
    exact ⟨q, by simpa [readTokens, hc] using hq, hof⟩
  | case5 n r prev c cs hc hc' r' last rest hstar ih =>
    rcases r.star_contents prev cs with hsame | ⟨mid, hmid, hend, hrest, t, ts, htokens, ht⟩
    · rw [hstar] at hsame
      have hleads := hr.star prev cs
      rw [hstar] at hleads
      obtain ⟨q, hq, hof⟩ := ih hleads h
      exact ⟨q, by simpa [readTokens, hc, hc', hsame] using hq, hof⟩
    · -- The reader ends up where it is at the end of the shorter glob.
      have hleads := hr.star prev cs
      rw [hstar] at hend hrest htokens hleads
      obtain rfl : rest = [] := hrest
      rw [readTokens] at h
      split at h
      · rename_i hframes
        obtain rfl := Except.ok.inj h
        refine ⟨r'.tokens.reverse, ?_, .inr ⟨rfl, ?_⟩⟩
        · simp [readTokens, hc, hc', hmid, hend, hframes]
        · rcases ht with rfl | rfl
          · obtain rfl := hleads ts htokens
            exact .inl (by rw [htokens]; rfl)
          · exact .inr ⟨ts.reverse, by rw [htokens, List.reverse_cons]⟩
      · cases h
  | case6 n r prev c cs hc hc' hc'' t rest hclass ih =>
    obtain ⟨q, hq, hof⟩ := ih (.push (ne_leading_of_readClass hclass) r) h
    exact ⟨q, by simpa [readTokens, hc, hc', hc'', readClass_append hclass] using hq, hof⟩
  | case7 _ _ _ _ _ _ _ _ e _ hlenient => cases hlenient
  | case8 => cases h
  | case9 n r prev c cs hc hc' hc'' hopen ih =>
    obtain ⟨q, hq, hof⟩ := ih (.of_nil rfl) h
    exact ⟨q, by simpa [readTokens, hc, hc', hc'', hopen] using hq, hof⟩
  | case10 => cases h
  | case11 n r prev c cs hc hc' hc'' hopen hclose f frames hframes all ih =>
    obtain ⟨q, hq, hof⟩ := ih (.push (by simp) ⟨frames, f.outer⟩) h
    exact ⟨q, by simpa [readTokens, hc, hc', hc'', hopen, hclose, hframes, all] using hq, hof⟩
  | case12 n r prev c cs hc hc' hc'' hopen hclose hcomma hframes ih =>
    obtain ⟨q, hq, hof⟩ := ih (.push (by simp) r) h
    exact ⟨q, by simpa [readTokens, hc, hc', hc'', hopen, hclose, hcomma, hframes] using hq, hof⟩
  | case13 n r prev c cs hc hc' hc'' hopen hclose hcomma f frames hframes ih =>
    obtain ⟨q, hq, hof⟩ := ih (.of_nil rfl) h
    exact ⟨q, by simpa [readTokens, hc, hc', hc'', hopen, hclose, hcomma, hframes] using hq, hof⟩
  | case14 => cases h
  | case15 n r prev c hc hc' hc'' hopen hclose hcomma hescape d rest ih =>
    obtain ⟨q, hq, hof⟩ := ih (.push (by simp) r) h
    exact ⟨q, by simpa [readTokens, hc, hc', hc'', hopen, hclose, hcomma, hescape] using hq, hof⟩
  | case16 n r prev c cs hc hc' hc'' hopen hclose hcomma hescape ih =>
    obtain ⟨q, hq, hof⟩ := ih (.push (by simp) r) h
    exact ⟨q, by simpa [readTokens, hc, hc', hc'', hopen, hclose, hcomma, hescape] using hq, hof⟩

/-- A glob that compiles also does so with the ending for contents. -/
theorem exists_parse_contents {dir : String} {p : Pattern} (h : parse dir = .ok p) :
    ∃ q, parse (dir ++ "/**") = .ok q ∧ ContentsOf q p := by
  rw [parse, parseWith] at h
  cases hread : readTokens false dir.toList.length ⟨[], []⟩ none dir.toList with
  | error e =>
    rw [hread] at h
    cases h
  | ok p' =>
    rw [hread] at h
    obtain rfl : p' = p := Except.ok.inj h
    obtain ⟨q, hq, hof⟩ := exists_readTokens_contents (.of_nil rfl) hread
    refine ⟨q, ?_, hof⟩
    have htext : (dir ++ "/**").toList = dir.toList ++ contents := String.toList_append
    rw [parse, parseWith, htext, List.length_append]
    simp only [contents, List.length_cons, List.length_nil] at hq ⊢
    rw [hq]
    rfl

/-! ## Matching what is below -/

section

variable {p q : Pattern} {dir path : String} {rest : List UInt8}

theorem matches_trailing (ts : Pattern) (path : String) : Pattern.matches (ts ++ [.trailing]) path =
    runAll (runAll (·.isEmpty) [.trailing]) ts path.toUTF8.toList := by
  unfold Pattern.matches
  split
  · rename_i hall
    have hlast := congrArg List.getLast? hall
    simp at hlast
  · rw [runAll_append]
    simp [needsBaseName]

theorem runAll_of_matches (h : p.matches path = true) :
    p = [.leading] ∨ runAll (·.isEmpty) p path.toUTF8.toList = true := by
  unfold Pattern.matches at h
  split at h
  · exact .inl rfl
  · exact .inr (Bool.and_eq_true_iff.1 h).1

/-- A pattern for contents matches everything below what it matches. -/
theorem ContentsOf.matches_on (h : ContentsOf q p) (hpath : path.toUTF8.toList = dir.toUTF8.toList ++ slash :: rest)
    (hmatches : q.matches dir = true) : q.matches path = true := by
  have hon (ts : Pattern) (hts : Pattern.matches (ts ++ [.trailing]) dir = true) :
      Pattern.matches (ts ++ [.trailing]) path = true := by
    rw [matches_trailing] at hts ⊢
    rw [hpath]
    refine runAll_extends ts (fun s hs => ?_) _ hts
    obtain ⟨s, rfl⟩ := runAll_trailing_iff.1 hs
    exact runAll_trailing_iff.2 ⟨s ++ slash :: rest, rfl⟩
  rcases h with rfl | ⟨rfl, rfl | ⟨ts, rfl⟩⟩
  · exact hon p hmatches
  · rfl
  · exact hon ts hmatches

/-- Where a pattern matches a directory, the one for contents matches everything below it; only a double star alone may
match more directories than it should. -/
theorem ContentsOf.matches_below (h : ContentsOf q p) (hall : p = [.leading] → q = [.leading])
    (hpath : path.toUTF8.toList = dir.toUTF8.toList ++ slash :: rest) (hmatches : p.matches dir = true) :
    q.matches path = true := by
  have hsame := h
  rcases h with rfl | ⟨rfl, -⟩
  · rcases runAll_of_matches hmatches with hleading | hrun
    · rw [hall hleading]
      rfl
    · rw [matches_trailing, hpath]
      refine runAll_extends p (fun s hs => ?_) _ hrun
      obtain rfl := List.isEmpty_iff.1 hs
      exact runAll_trailing_iff.2 ⟨rest, rfl⟩
  · exact hsame.matches_on hpath hmatches

end

end PromptPack.Glob
