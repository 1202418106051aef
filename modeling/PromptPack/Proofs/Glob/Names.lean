import PromptPack.Proofs.Path.Names
import PromptPack.Proofs.Text.Bytes
/-!
# Globs against chains of names

A double star in front of a pattern passes over the first names of a chain, and what follows has to match the
names that are left. So a double star and a name match the chains that end in the name, and with a double star
behind it they match the chains that go on below it.
-/

namespace PromptPack.Glob

variable {k : List UInt8 → Bool} {s front rest : List UInt8}

/-! ## Plain text -/

theorem dropBytes?_eq_some_iff : dropBytes? front s = some rest ↔ s = front ++ rest := by
  induction front generalizing s with
  | nil => simp [dropBytes?]
  | cons b front ih =>
    cases s with
    | nil => simp [dropBytes?]
    | cons c s =>
      by_cases hbc : b = c
      · subst hbc
        simp [dropBytes?, ih]
      · simp [dropBytes?, hbc, Ne.symm hbc]

theorem runAll_literals_iff {cs : List Char} {ts : List Token} : runAll k (cs.map .literal ++ ts) s = true ↔
    ∃ rest, s = cs.flatMap bytesOf ++ rest ∧ runAll k ts rest = true := by
  induction cs generalizing s with
  | nil => simp
  | cons c cs ih =>
    rw [List.map_cons, List.cons_append, runAll, Token.run?, List.flatMap_cons]
    cases hdrop : dropBytes? (bytesOf c) s with
    | none =>
      refine iff_of_false (by simp) ?_
      rintro ⟨rest, heq, -⟩
      rw [List.append_assoc, ← dropBytes?_eq_some_iff, hdrop] at heq
      cases heq
    | some s' =>
      rw [dropBytes?_eq_some_iff] at hdrop
      subst hdrop
      simpa [List.append_assoc] using ih

theorem someEnd_of_nil (h : k [] = true) (s : List UInt8) : someEnd k s = true := by
  induction s with
  | nil => exact h
  | cons b s ih => rw [someEnd, ih, Bool.or_true]

theorem runAll_trailing_iff : runAll (·.isEmpty) [.trailing] s = true ↔ ∃ rest, s = slash :: rest := by
  cases s with
  | nil => simp [runAll, Token.run?]
  | cons b s =>
    rw [runAll, Token.run?, someEnd_of_nil rfl s, Bool.and_true, beq_iff_eq]
    simp

/-! ## Pieces between slashes -/

theorem afterSlash_append (h : slash ∉ front) : afterSlash k (front ++ s) = afterSlash k s := by
  induction front with
  | nil => rfl
  | cons b front ih =>
    rw [List.mem_cons, not_or] at h
    have hb : (b == slash) = false := by simpa using Ne.symm h.1
    rw [List.cons_append, afterSlash, hb, Bool.false_and, Bool.false_or, ih h.2]

variable {piece : List UInt8} {pieces : List (List UInt8)}

/-- A leading double star passes over any pieces but the last. -/
theorem leading_iff (hne : pieces ≠ []) (hfree : ∀ p ∈ pieces, slash ∉ p) :
    Token.run? k .leading ([slash].intercalate pieces) = true ↔
      ∃ above below, pieces = above ++ below ∧ below ≠ [] ∧ k ([slash].intercalate below) = true := by
  induction pieces with
  | nil => exact absurd rfl hne
  | cons p rest ih =>
    rw [List.forall_mem_cons] at hfree
    -- Slashes stand between pieces only, so what follows one is a chain of later pieces.
    have hafter : afterSlash k ([slash].intercalate (p :: rest)) = true ↔
        ∃ above below, rest = above ++ below ∧ below ≠ [] ∧ k ([slash].intercalate below) = true := by
      cases rest with
      | nil =>
        refine iff_of_false ?_ ?_
        · rw [List.intercalate_singleton, ← List.append_nil p, afterSlash_append hfree.1]
          simp [afterSlash]
        · rintro ⟨above, below, heq, hbelow, -⟩
          exact hbelow (List.append_eq_nil_iff.1 heq.symm).2
      | cons q rest =>
        rw [← ih (by simp) hfree.2, List.intercalate_cons_cons, List.append_assoc, afterSlash_append hfree.1]
        simp [afterSlash, Token.run?]
    rw [Token.run?, Bool.or_eq_true, hafter]
    constructor
    · rintro (hall | ⟨above, below, rfl, hbelow, hk⟩)
      · exact ⟨[], _, rfl, by simp, hall⟩
      · exact ⟨p :: above, below, rfl, hbelow, hk⟩
    · rintro ⟨above, below, heq, hbelow, hk⟩
      cases above with
      | nil =>
        subst heq
        exact .inl hk
      | cons p' above => exact .inr ⟨above, below, (List.cons.inj heq).2, hbelow, hk⟩

theorem append_slash_inj {front' rest' : List UInt8} (h : slash ∉ front) (h' : slash ∉ front') :
    front ++ slash :: rest = front' ++ slash :: rest' ↔ front = front' ∧ rest = rest' := by
  induction front generalizing front' with
  | nil =>
    cases front' with
    | nil => simp
    | cons b' front' =>
      rw [List.mem_cons, not_or] at h'
      simp [h'.1]
  | cons b front ih =>
    rw [List.mem_cons, not_or] at h
    cases front' with
    | nil => simp [Ne.symm h.1]
    | cons b' front' =>
      rw [List.mem_cons, not_or] at h'
      simp [ih h.2 h'.2, and_assoc]

theorem intercalate_eq_piece_iff (hpiece : slash ∉ piece) {p : List UInt8} :
    [slash].intercalate (p :: pieces) = piece ↔ p = piece ∧ pieces = [] := by
  cases pieces with
  | nil => simp
  | cons q rest =>
    refine iff_of_false ?_ (by simp)
    rw [List.intercalate_cons_cons]
    rintro rfl
    exact hpiece (by simp)

theorem exists_intercalate_eq_iff (hpiece : slash ∉ piece) {p : List UInt8} (hp : slash ∉ p) :
    (∃ rest, [slash].intercalate (p :: pieces) = piece ++ slash :: rest) ↔ p = piece ∧ pieces ≠ [] := by
  cases pieces with
  | nil =>
    refine iff_of_false ?_ (by simp)
    rintro ⟨rest, heq⟩
    rw [List.intercalate_singleton] at heq
    exact hp (by simp [heq])
  | cons q pieces =>
    simp only [List.intercalate_cons_cons, List.append_assoc, List.singleton_append, append_slash_inj hp hpiece]
    simp

/-! ## Names -/

variable {name : String} {names : List String}

theorem slash_not_mem_bytes (h : '/' ∉ name.toList) : slash ∉ name.toUTF8.toList := by
  rw [Text.toUTF8_toList, List.mem_flatMap]
  rintro ⟨c, hc, hslash⟩
  exact h (Text.slash_mem_bytesOf_iff.1 hslash ▸ hc)

theorem bytes_ofNames (names : List String) :
    (Path.ofNames names).text.toUTF8.toList = [slash].intercalate (names.map fun n => n.toUTF8.toList) := by
  induction names with
  | nil => simp [Path.ofNames]
  | cons n rest ih =>
    by_cases hrest : rest = []
    · subst hrest
      simp [Path.ofNames]
    · rw [Path.ofNames, String.intercalate_cons_of_ne_nil hrest, List.map_cons,
        List.intercalate_cons_of_ne_nil (by simpa using hrest), ← ih]
      simp only [Text.toUTF8_toList, String.toList_append, List.flatMap_append]
      rfl

/-- Behind a double star, plain text has to stand at the beginning of some name. -/
theorem runAll_leading_text_iff {ts : List Token} (hne : names ≠ []) (h : ∀ n ∈ names, '/' ∉ n.toList) :
    runAll k (.leading :: (name.toList.map .literal ++ ts)) (Path.ofNames names).text.toUTF8.toList = true ↔
      ∃ above n below, names = above ++ n :: below ∧ ∃ rest,
        [slash].intercalate ((n :: below).map fun n => n.toUTF8.toList) = name.toUTF8.toList ++ rest ∧
          runAll k ts rest = true := by
  have hfree : ∀ p ∈ names.map fun n => n.toUTF8.toList, slash ∉ p := by
    rw [List.forall_mem_map]
    exact fun n hn => slash_not_mem_bytes (h n hn)
  simp only [runAll, bytes_ofNames, leading_iff (by simpa using hne) hfree, runAll_literals_iff,
    ← Text.toUTF8_toList]
  constructor
  · rintro ⟨above, below, heq, hbelow, hrun⟩
    obtain ⟨above, below, rfl, rfl, rfl⟩ := List.map_eq_append_iff.1 heq
    obtain ⟨n, below, rfl⟩ := List.exists_cons_of_ne_nil (fun h => hbelow (congrArg _ h))
    exact ⟨above, n, below, rfl, hrun⟩
  · rintro ⟨above, n, below, rfl, hrun⟩
    exact ⟨_, _, List.map_append, by simp, hrun⟩

/-- A double star and a name match what ends in the name. -/
theorem runAll_leading_name_iff (hname : '/' ∉ name.toList) (hne : names ≠ []) (h : ∀ n ∈ names, '/' ∉ n.toList) :
    runAll (·.isEmpty) (.leading :: name.toList.map .literal) (Path.ofNames names).text.toUTF8.toList = true ↔
      names.getLast? = some name := by
  have hbytes (n : String) (below : List String) :
      [slash].intercalate ((n :: below).map fun n => n.toUTF8.toList) = name.toUTF8.toList ↔ n = name ∧ below = [] := by
    rw [List.map_cons, intercalate_eq_piece_iff (slash_not_mem_bytes hname), Text.toUTF8_toList_inj, List.map_eq_nil_iff]
  rw [← List.append_nil (name.toList.map Token.literal), runAll_leading_text_iff hne h, List.getLast?_eq_some_iff]
  simp only [runAll, List.isEmpty_iff, exists_eq_right, List.append_nil, hbytes]
  constructor
  · rintro ⟨above, n, below, rfl, rfl, rfl⟩
    exact ⟨above, rfl⟩
  · rintro ⟨above, rfl⟩
    exact ⟨above, name, [], rfl, rfl, rfl⟩

/-- A double star, a name and a double star match what goes on below the name. -/
theorem runAll_leading_dir_iff (hname : '/' ∉ name.toList) (hne : names ≠ []) (h : ∀ n ∈ names, '/' ∉ n.toList) :
    runAll (·.isEmpty) (.leading :: (name.toList.map .literal ++ [.trailing]))
      (Path.ofNames names).text.toUTF8.toList = true ↔ name ∈ names.dropLast := by
  have hbytes (n : String) (below : List String) (hn : '/' ∉ n.toList) :
      (∃ rest, [slash].intercalate ((n :: below).map fun n => n.toUTF8.toList) = name.toUTF8.toList ++ rest ∧
        runAll (·.isEmpty) [.trailing] rest = true) ↔ n = name ∧ below ≠ [] := by
    rw [← Text.toUTF8_toList_inj, Ne, ← List.map_eq_nil_iff (f := fun n : String => n.toUTF8.toList),
      ← exists_intercalate_eq_iff (slash_not_mem_bytes hname) (slash_not_mem_bytes hn)]
    simp only [runAll_trailing_iff, List.map_cons]
    constructor
    · rintro ⟨_, heq, rest, rfl⟩
      exact ⟨rest, heq⟩
    · rintro ⟨rest, heq⟩
      exact ⟨_, heq, rest, rfl⟩
  rw [runAll_leading_text_iff hne h]
  constructor
  · rintro ⟨above, n, below, rfl, hrun⟩
    obtain ⟨rfl, hbelow⟩ := (hbytes n below (h n (by simp))).1 hrun
    rw [List.dropLast_append_of_ne_nil (by simp), List.dropLast_cons_of_ne_nil hbelow]
    simp
  · intro hmem
    obtain ⟨above, below, heq⟩ := List.append_of_mem hmem
    refine ⟨above, name, below ++ [names.getLast hne], ?_, (hbytes _ _ hname).2 ⟨rfl, by simp⟩⟩
    rw [← List.cons_append, ← List.append_assoc, ← heq, List.dropLast_concat_getLast]

end PromptPack.Glob
