import Mathlib.Data.List.Induction
import PromptPack.Proofs.Text.Pieces
import PromptPack.Text.Grouped
/-!
# Numerals, plain and with thousands separators

The decimal numeral of a number is the one list of digits that counts up to it and has no needless zero in front
(`isNumeral_iff`). With thousands separators it is cut into groups of three digits, of which the first may be shorter: a
comma stands where the digits that are left make up whole groups (`groupDigits_eq_flatMap`). There is no other way to put
commas into it so that it has such groups (`InThousands.unique`).
-/

namespace PromptPack.Text

variable {n : Nat} {ds : List Char}

/-! ## Plain numerals -/

/-- The digits count up to the number, and a zero in front stands alone. -/
structure IsNumeral (n : Nat) (ds : List Char) : Prop where
  nonempty : ds ≠ []
  isDigit : ∀ c ∈ ds, c.isDigit = true
  value : Nat.ofDigitChars 10 ds 0 = n
  zero : ds.head? = some '0' → ds = ['0']

/-- Only zero is printed with a zero in front. -/
theorem head_toDigits : (Nat.toDigits 10 n).head? = some '0' → Nat.toDigits 10 n = ['0'] := by
  induction n using Nat.base_induction 10 (by decide) with
  | single m hm =>
    rw [Nat.toDigits_of_lt_base hm]
    simp
  | digit m k hk hm ih =>
    rw [← Nat.toDigits_append_toDigits (by decide) hm hk, List.head?_append_of_ne_nil _ Nat.toDigits_ne_nil]
    intro hhead
    have hzero := congrArg (Nat.ofDigitChars 10 · 0) (ih hhead)
    rw [Nat.ofDigitChars_ten_toDigits] at hzero
    exact absurd (hzero.trans (by decide)) (Nat.ne_of_gt hm)

theorem isNumeral_toDigits (n : Nat) : IsNumeral n (Nat.toDigits 10 n) where
  nonempty := Nat.toDigits_ne_nil
  isDigit _ hc := Nat.isDigit_of_mem_toDigits (by decide) (by decide) hc
  value := Nat.ofDigitChars_ten_toDigits
  zero := head_toDigits

theorem exists_digitChar {c : Char} (h : c.isDigit = true) : ∃ d < 10, c = d.digitChar ∧ c.toNat - '0'.toNat = d := by
  obtain ⟨hlow, hhigh⟩ : 48 ≤ c.toNat ∧ c.toNat ≤ 57 := by simpa [Char.isDigit, UInt32.le_iff_toNat_le] using h
  have hd : c.toNat - 48 < 10 := by omega
  refine ⟨c.toNat - 48, hd, Char.toNat_inj.1 ?_, rfl⟩
  rw [Nat.toNat_digitChar_of_lt_ten hd]
  omega

/-- A number has one numeral. -/
theorem isNumeral_iff : IsNumeral n ds ↔ ds = Nat.toDigits 10 n := by
  refine ⟨fun h => ?_, fun h => h ▸ isNumeral_toDigits n⟩
  induction ds using List.reverseRecOn generalizing n with
  | nil => exact absurd rfl h.nonempty
  | append_singleton front c ih =>
    obtain ⟨d, hd, rfl, hvalue⟩ := exists_digitChar (h.isDigit c (by simp))
    have hn : 10 * Nat.ofDigitChars 10 front 0 + d = n := by
      rw [← h.value, Nat.ofDigitChars_append, Nat.ofDigitChars_cons, Nat.ofDigitChars_nil, hvalue]
    by_cases hfront : front = []
    · subst hfront
      obtain rfl : d = n := by simpa using hn
      rw [Nat.toDigits_of_lt_base hd, List.nil_append]
    · have hhead : front.head? ≠ some '0' := by
        intro hzero
        have hlone := h.zero (by rw [List.head?_append_of_ne_nil _ hfront, hzero])
        rcases List.append_eq_singleton_iff.1 hlone with ⟨hnil, -⟩ | ⟨-, hnil⟩
        · exact hfront hnil
        · cases hnil
      have hnumeral : IsNumeral (Nat.ofDigitChars 10 front 0) front :=
        ⟨hfront, fun c hc => h.isDigit c (by simp [hc]), rfl, fun hzero => absurd hzero hhead⟩
      have hdigits := ih hnumeral
      have hpos : 0 < Nat.ofDigitChars 10 front 0 := by
        refine Nat.pos_of_ne_zero fun hzero => hhead ?_
        rw [hdigits, hzero]
        rfl
      rw [← hn, ← Nat.toDigits_append_toDigits (by decide) hpos hd, ← hdigits, Nat.toDigits_of_lt_base hd]

/-! ## Thousands separators -/

theorem groupDigits_cons (d : Char) (ds : List Char) (k : Nat) : groupDigits (d :: ds) =
    d :: (ds.zipIdx k).flatMap fun x => if (k + ds.length - x.2) % 3 = 0 then [',', x.1] else [x.1] := by
  induction ds generalizing d k with
  | nil => rfl
  | cons e ds ih =>
    have hrest := ih e (k + 1)
    rw [Nat.add_right_comm, Nat.add_assoc] at hrest
    rw [groupDigits, hrest, List.zipIdx_cons, List.flatMap_cons, List.length_cons, Nat.add_sub_cancel_left]
    by_cases hcomma : (ds.length + 1) % 3 = 0
    · simp [hcomma]
    · simp [hcomma]

/-- A comma stands in front of each digit but the first from which on the digits make up whole groups. -/
theorem groupDigits_eq_flatMap (ds : List Char) : groupDigits ds =
    ds.zipIdx.flatMap fun x => if 0 < x.2 ∧ (ds.length - x.2) % 3 = 0 then [',', x.1] else [x.1] := by
  cases ds with
  | nil => rfl
  | cons d ds =>
    rw [groupDigits_cons d ds 1, List.zipIdx_cons, List.flatMap_cons, if_neg (by simp), List.singleton_append]
    refine congrArg (d :: ·) (List.flatMap_congr fun x hx => ?_)
    have hpos : 0 < x.2 := (List.mem_zipIdx hx).1
    simp only [List.length_cons, Nat.add_comm 1, hpos, true_and]

theorem mem_groupDigits {c : Char} (h : c ∈ groupDigits ds) : c ∈ ds ∨ c = ',' := by
  fun_induction groupDigits ds with
  | case1 => exact .inl h
  | case2 => exact .inl h
  | case3 d e ds _ ih =>
    simp only [List.mem_cons] at h ih ⊢
    tauto
  | case4 d e ds _ ih =>
    simp only [List.mem_cons] at h ih ⊢
    tauto

/-- The commas are all that is put in. -/
theorem filter_groupDigits (h : ',' ∉ ds) : (groupDigits ds).filter (· != ',') = ds := by
  fun_induction groupDigits ds with
  | case1 => rfl
  | case2 d =>
    rw [List.mem_singleton] at h
    rw [List.filter_cons, if_pos (bne_iff_ne.2 (Ne.symm h)), List.filter_nil]
  | case3 d e ds _ ih =>
    rw [List.mem_cons, not_or] at h
    rw [List.filter_cons, if_pos (bne_iff_ne.2 (Ne.symm h.1)), List.filter_cons, if_neg (by decide), ih h.2]
  | case4 d e ds _ ih =>
    rw [List.mem_cons, not_or] at h
    rw [List.filter_cons, if_pos (bne_iff_ne.2 (Ne.symm h.1)), ih h.2]

/-- Groups of three characters behind a first one that may be shorter, but not empty. -/
def InThrees (groups : List (List Char)) : Prop :=
  ∃ first rest, groups = first :: rest ∧ 1 ≤ first.length ∧ first.length ≤ 3 ∧ ∀ group ∈ rest, group.length = 3

theorem InThrees.nil_not_mem {groups : List (List Char)} (h : InThrees groups) : [] ∉ groups := by
  obtain ⟨first, rest, rfl, hpos, -, hrest⟩ := h
  rw [List.mem_cons, not_or]
  refine ⟨?_, fun hmem => nomatch hrest [] hmem⟩
  rintro rfl
  cases hpos

/-- There is one way to cut a list like this. -/
theorem InThrees.eq_of_flatten_eq {groups groups' : List (List Char)} (h : InThrees groups) (h' : InThrees groups')
    (heq : groups.flatten = groups'.flatten) : groups = groups' := by
  obtain ⟨first, rest, rfl, hpos, hle, hrest⟩ := h
  obtain ⟨first', rest', rfl, hpos', hle', hrest'⟩ := h'
  have hlengths {first : List Char} {rest : List (List Char)} (hrest : ∀ group ∈ rest, group.length = 3) :
      (first :: rest).map List.length = first.length :: List.replicate rest.length 3 := by
    rw [List.map_cons, List.map_eq_replicate_iff.2 hrest]
  have htotal := congrArg List.length heq
  rw [List.length_flatten, List.length_flatten, hlengths hrest, hlengths hrest'] at htotal
  simp only [List.sum_cons, List.sum_replicate_nat] at htotal
  have hfirst : first.length = first'.length := by omega
  have hcount : rest.length = rest'.length := by omega
  rw [List.eq_iff_flatten_eq, hlengths hrest, hlengths hrest', hfirst, hcount]
  exact ⟨heq, rfl⟩

/-- The groups are cut from the end, so the first one takes what does not make up three digits. -/
theorem splitChars_groupDigits (hne : ds ≠ []) (h : ',' ∉ ds) :
    ∃ first rest, splitChars (· == ',') (groupDigits ds) = first :: rest ∧ first.length = (ds.length - 1) % 3 + 1 ∧
      ∀ group ∈ rest, group.length = 3 := by
  fun_induction groupDigits ds with
  | case1 => exact absurd rfl hne
  | case2 d =>
    rw [List.mem_singleton] at h
    have hd : (d == ',') = false := beq_eq_false_iff_ne.2 (Ne.symm h)
    exact ⟨[d], [], splitChars_of_not_mem (by simpa using hd), rfl, nofun⟩
  | case3 d e ds hcomma ih =>
    rw [List.mem_cons, not_or] at h
    obtain ⟨first, rest, hsplit, hfirst, hrest⟩ := ih (List.cons_ne_nil e ds) h.2
    have hd : (d == ',') = false := beq_eq_false_iff_ne.2 (Ne.symm h.1)
    have hcount : (ds.length + 1) % 3 = 0 := by simpa using hcomma
    refine ⟨[d], first :: rest, ?_, ?_, List.forall_mem_cons.2 ⟨?_, hrest⟩⟩
    · simp [splitChars, hd, hsplit]
    · simp [hcount]
    · rw [hfirst, List.length_cons]
      omega
  | case4 d e ds hcomma ih =>
    rw [List.mem_cons, not_or] at h
    obtain ⟨first, rest, hsplit, hfirst, hrest⟩ := ih (List.cons_ne_nil e ds) h.2
    have hd : (d == ',') = false := beq_eq_false_iff_ne.2 (Ne.symm h.1)
    have hcount : (ds.length + 1) % 3 ≠ 0 := by simpa using hcomma
    refine ⟨d :: first, rest, ?_, ?_, hrest⟩
    · simp [splitChars, hd, hsplit]
    · simp only [List.length_cons] at hfirst ⊢
      omega

theorem inThrees_groupDigits (hne : ds ≠ []) (h : ',' ∉ ds) : InThrees (splitChars (· == ',') (groupDigits ds)) := by
  obtain ⟨first, rest, hsplit, hfirst, hrest⟩ := splitChars_groupDigits hne h
  exact ⟨first, rest, hsplit, by omega, by omega, hrest⟩

/-- The text is the numeral of the number with commas between groups of three digits. -/
structure InThousands (n : Nat) (s : String) : Prop where
  isDigit_or_comma : ∀ c ∈ s.toList, c.isDigit = true ∨ c = ','
  isNumeral : IsNumeral n (s.toList.filter (· != ','))
  groups : InThrees (splitChars (· == ',') s.toList)

theorem inThousands_grouped (n : Nat) : InThousands n (grouped n) := by
  have hcomma : ',' ∉ Nat.toDigits 10 n := fun h => by
    have hdigit := (isNumeral_toDigits n).isDigit _ h
    revert hdigit
    decide
  refine ⟨fun c hc => ?_, ?_, ?_⟩
  · rw [grouped, String.toList_ofList] at hc
    exact (mem_groupDigits hc).imp_left ((isNumeral_toDigits n).isDigit c)
  · rw [grouped, String.toList_ofList, filter_groupDigits hcomma]
    exact isNumeral_toDigits n
  · rw [grouped, String.toList_ofList]
    exact inThrees_groupDigits Nat.toDigits_ne_nil hcomma

theorem InThousands.unique {s t : String} (hs : InThousands n s) (ht : InThousands n t) : s = t := by
  have hdigits := (isNumeral_iff.1 hs.isNumeral).trans (isNumeral_iff.1 ht.isNumeral).symm
  have hgroups := hs.groups.eq_of_flatten_eq ht.groups (by rwa [flatten_splitChars, flatten_splitChars])
  rw [← String.toList_inj, ← intercalate_splitChars ',' s.toList, hgroups, intercalate_splitChars]

theorem InThousands.no_comma_at_ends {s : String} (h : InThousands n s) :
    s ≠ "" ∧ s.toList.head? ≠ some ',' ∧ s.toList.getLast? ≠ some ',' := by
  have hnil := h.groups.nil_not_mem
  refine ⟨?_, fun hhead => hnil ?_, fun hlast => hnil ?_⟩
  · rintro rfl
    exact hnil (by simp [splitChars])
  · obtain ⟨cs, hcs⟩ := List.head?_eq_some_iff.1 hhead
    simp [hcs, splitChars]
  · obtain ⟨cs, hcs⟩ := List.getLast?_eq_some_iff.1 hlast
    rw [hcs, splitChars_append cs [] (by simp)]
    simp [splitChars]

/-- A number with thousands separators is its decimal numeral, cut into groups of three digits from the end, and nothing
else is. So it is not empty, no comma stands at its ends, and no two numbers are written alike. -/
theorem grouped_is_in_thousands :
    (∀ n s, InThousands n s ↔ s = grouped n) ∧
      (∀ n, grouped n ≠ "" ∧ (grouped n).toList.head? ≠ some ',' ∧ (grouped n).toList.getLast? ≠ some ',') ∧
      Function.Injective grouped := by
  refine ⟨fun n s => ⟨fun h => h.unique (inThousands_grouped n), ?_⟩,
    fun n => (inThousands_grouped n).no_comma_at_ends, fun n m heq => ?_⟩
  · rintro rfl
    exact inThousands_grouped n
  · have hn := (inThousands_grouped n).isNumeral.value
    rw [heq] at hn
    exact hn.symm.trans (inThousands_grouped m).isNumeral.value

example : grouped 1234567 = "1,234,567" := by decide

end PromptPack.Text
