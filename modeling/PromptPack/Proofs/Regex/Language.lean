import Mathlib.Data.String.Basic
import PromptPack.Regex.Basic
/-!
# What expressions spell

Leaving greed, places and names aside, an expression stands for a set of texts (`Regex.Spells`). Whatever a run does,
it goes on only at places that it reached by moving over one of these texts (`run_reads`), and so the search for
matches goes from place to place over the text that is searched.

A match is a piece of the text that was searched, one that its expression spells, and it tells in bytes where that
piece stands (`exists_around_of_mem_findAll`). No match is empty. Where every way through an expression passes over a
character that is not blank, each of its matches holds one (`exists_visible_of_mem_findAll`).
-/

namespace PromptPack

namespace Cursor

variable {c d e : Cursor} {cs ds : List Char}

/-- `d` is reached from `c` by moving over the given characters. -/
inductive Reads : Cursor → List Char → Cursor → Prop
  | nil (c : Cursor) : Reads c [] c
  | cons {c d e : Cursor} {x : Char} {cs : List Char} : c.next? = some (x, d) → Reads d cs e → Reads c (x :: cs) e

theorem Reads.append (h : c.Reads cs d) (h' : d.Reads ds e) : c.Reads (cs ++ ds) e := by
  induction h with
  | nil => exact h'
  | cons hn _ ih => exact .cons hn (ih h')

end Cursor

namespace Regex

/-- The text is one of those that the expression stands for. -/
def Spells : Regex → List Char → Prop
  | char test, cs => ∃ x, test x = true ∧ cs = [x]
  | seq r s, cs => ∃ front back, r.Spells front ∧ s.Spells back ∧ cs = front ++ back
  | alt r s, cs => r.Spells cs ∨ s.Spells cs
  | star _ r, cs => ∃ pieces : List (List Char), (∀ piece ∈ pieces, r.Spells piece) ∧ cs = pieces.flatten
  | group _ r, cs => r.Spells cs
  -- The other expressions look at a place and take nothing.
  | _, cs => cs = []

/-- Whatever the step results in was said by its continuation, at a place reached over a text with the property. -/
def Reads {α : Type} (step : Cursor → Groups → (Cursor → Groups → Option α) → Option α) (P : List Char → Prop) :
    Prop :=
  ∀ c g k a, step c g k = some a → ∃ cs d g', P cs ∧ c.Reads cs d ∧ k d g' = some a

/-- The text is put together from pieces that have the property. -/
def Pieced (P : List Char → Prop) (cs : List Char) : Prop :=
  ∃ pieces : List (List Char), (∀ piece ∈ pieces, P piece) ∧ cs = pieces.flatten

theorem pieced_nil (P : List Char → Prop) : Pieced P [] := ⟨[], by simp, rfl⟩

theorem Pieced.append {P : List Char → Prop} {cs ds : List Char} (h : Pieced P ds) (hcs : P cs) :
    Pieced P (cs ++ ds) := by
  obtain ⟨pieces, hpieces, rfl⟩ := h
  exact ⟨cs :: pieces, List.forall_mem_cons.2 ⟨hcs, hpieces⟩, rfl⟩

theorem iterate_reads {α : Type} {step : Cursor → Groups → (Cursor → Groups → Option α) → Option α}
    {P : List Char → Prop} (hstep : Reads step P) (greed : Greed) (n : Nat) :
    Reads (fun c g k => iterate step greed k n c g) (Pieced P) := by
  induction n with
  | zero =>
    intro c g k a h
    simp only [iterate] at h
    exact ⟨[], c, g, pieced_nil P, .nil c, h⟩
  | succ n ih =>
    intro c g k a h
    have hstop (h : k c g = some a) : ∃ cs d g', Pieced P cs ∧ c.Reads cs d ∧ k d g' = some a :=
      ⟨[], c, g, pieced_nil P, .nil c, h⟩
    have honward (h : step c g (iterate.onward step greed k n c) = some a) :
        ∃ cs d g', Pieced P cs ∧ c.Reads cs d ∧ k d g' = some a := by
      obtain ⟨cs, d, g', hcs, hread, hd⟩ := hstep c g _ a h
      unfold iterate.onward at hd
      split at hd
      · obtain ⟨ds, e, g'', hds, hreads, he⟩ := ih d g' k a hd
        exact ⟨cs ++ ds, e, g'', hds.append hcs, hread.append hreads, he⟩
      · cases hd
    cases greed <;> simp only [iterate, Option.orElse_eq_or, Option.or_eq_some_iff] at h <;>
      rcases h with h | ⟨_, h⟩
    · exact honward h
    · exact hstop h
    · exact hstop h
    · exact honward h

/-- A step that only looks at its place goes on there or not at all. -/
theorem reads_of_stays {α : Type} {step : Cursor → Groups → (Cursor → Groups → Option α) → Option α}
    (h : ∀ c g k, step c g k = none ∨ step c g k = k c g) : Reads step fun cs => cs = [] := by
  intro c g k a ha
  rcases h c g k with hnone | hhere
  · cases hnone.symm.trans ha
  · exact ⟨[], c, g, rfl, .nil c, hhere.symm.trans ha⟩

/-- A run goes on only at places that it reached over a text of the expression. -/
theorem run_reads {α : Type} (r : Regex) : Reads (α := α) r.run r.Spells := by
  induction r with
  | empty => exact reads_of_stays fun _ _ _ => .inr rfl
  | char test =>
    intro c g k a h
    simp only [run] at h
    split at h
    · cases h
    · rename_i x d hn
      split at h
      · rename_i hx
        exact ⟨[x], d, g, ⟨x, hx, rfl⟩, .cons hn (.nil d), h⟩
      · cases h
  | lineStart =>
    refine reads_of_stays fun c g k => ?_
    simp only [run]
    split
    · exact .inr rfl
    · split
      · exact .inr rfl
      · exact .inl rfl
  | lineEnd =>
    refine reads_of_stays fun c g k => ?_
    simp only [run]
    split
    · exact .inr rfl
    · split
      · exact .inr rfl
      · exact .inl rfl
  | wordBoundary =>
    refine reads_of_stays fun c g k => ?_
    simp only [run]
    split
    · exact .inr rfl
    · exact .inl rfl
  | seq r s ihr ihs =>
    intro c g k a h
    obtain ⟨front, d, g', hfront, hcd, hd⟩ := ihr c g _ a h
    obtain ⟨back, e, g'', hback, hde, he⟩ := ihs d g' k a hd
    exact ⟨front ++ back, e, g'', ⟨front, back, hfront, hback, rfl⟩, hcd.append hde, he⟩
  | alt r s ihr ihs =>
    intro c g k a h
    simp only [run, Option.orElse_eq_or, Option.or_eq_some_iff] at h
    rcases h with h | ⟨_, h⟩
    · obtain ⟨cs, d, g', hcs, hcd, hd⟩ := ihr c g k a h
      exact ⟨cs, d, g', .inl hcs, hcd, hd⟩
    · obtain ⟨cs, d, g', hcs, hcd, hd⟩ := ihs c g k a h
      exact ⟨cs, d, g', .inr hcs, hcd, hd⟩
  | star greed r ih =>
    intro c g k a h
    exact iterate_reads ih greed c.room c g k a h
  | group name r ih =>
    intro c g k a h
    obtain ⟨cs, d, g', hcs, hcd, hd⟩ := ih c g _ a h
    exact ⟨cs, d, _, hcs, hcd, hd⟩

/-! ## Letters in either case -/

/-- A sign that comes in front of all letters is no letter's small form. -/
theorem eq_of_toLower_eq {a b : Char} (hb : b.val.toNat < 65) (h : a.toLower = b) : a = b := by
  unfold Char.toLower at h
  split at h
  · rename_i hupper
    -- A capital letter lies behind all signs, and its small letter more so.
    have hval : a.val + 32 = b.val := congrArg Char.val h
    have hge : 65 ≤ a.val.toNat := UInt32.le_iff_toNat_le.1 hupper.1
    have hle : a.val.toNat ≤ 90 := UInt32.le_iff_toNat_le.1 hupper.2
    have hsum : (a.val.toNat + 32) % 2 ^ 32 = b.val.toNat := congrArg UInt32.toNat hval
    omega
  · exact h

theorem toLower_eq {a : Char} (ha : a.val.toNat < 65) : a.toLower = a := by
  unfold Char.toLower
  split
  · rename_i hupper
    have hge : 65 ≤ a.val.toNat := UInt32.le_iff_toNat_le.1 hupper.1
    omega
  · rfl

/-- A sign that comes in front of all letters has no other case. -/
theorem sameLetter_iff_of_left {a b : Char} (ha : a.val.toNat < 65) : sameLetter a b = true ↔ b = a := by
  have hother (c : Char) (hc : 65 ≤ c.val.toNat) : (a == c) = false := by
    rw [beq_eq_false_iff_ne]
    rintro rfl
    omega
  simp only [sameLetter, toLower_eq ha, hother 's' (by decide), hother 'k' (by decide), Bool.false_and, Bool.or_false,
    beq_iff_eq]
  exact ⟨fun h => eq_of_toLower_eq ha h.symm, fun h => h ▸ (toLower_eq ha).symm⟩

theorem sameLetter_iff_of_right {a b : Char} (hb : b.val.toNat < 65) : sameLetter a b = true ↔ a = b := by
  have hother (c : Char) (hc : 65 ≤ c.val.toNat) : (b == c) = false := by
    rw [beq_eq_false_iff_ne]
    rintro rfl
    omega
  simp only [sameLetter, toLower_eq hb, hother 'ſ' (by decide), hother '\u212A' (by decide), Bool.and_false,
    Bool.or_false, beq_iff_eq]
  exact ⟨eq_of_toLower_eq hb, fun h => h.symm ▸ toLower_eq hb⟩

theorem spells_anyCase_append {s t : String} {cs : List Char} (h : (anyCase (s ++ t)).Spells cs) :
    ∃ front back, (anyCase s).Spells front ∧ (anyCase t).Spells back ∧ cs = front ++ back := by
  unfold anyCase at h ⊢
  rw [String.toList_append] at h
  generalize s.toList = as at h ⊢
  induction as generalizing cs with
  | nil => exact ⟨[], cs, rfl, h, rfl⟩
  | cons a as ih =>
    obtain ⟨first, rest, hfirst, hrest, rfl⟩ := h
    obtain ⟨front, back, hfront, hback, rfl⟩ := ih hrest
    exact ⟨first ++ front, back, ⟨first, front, hfirst, hfront, rfl⟩, hback, (List.append_assoc ..).symm⟩

/-! ## Searching -/

variable {r : Regex} {m : Match}

theorem exists_reads_of_matchAt? {c stop : Cursor} (h : matchAt? r c = some (m, stop)) :
    (∃ cs, r.Spells cs ∧ c.Reads cs stop) ∧ stop.room < c.room ∧
      m.start = c.pos ∧ m.stop = stop.pos ∧ m.text = between c stop := by
  unfold matchAt? at h
  split at h
  · rename_i hrun
    split at h
    · rename_i hroom
      cases h
      obtain ⟨cs, d, g', hcs, hread, hd⟩ := run_reads r c [] _ _ hrun
      cases hd
      exact ⟨⟨cs, hcs, hread⟩, hroom, rfl, rfl, rfl⟩
    · cases h
  · cases h

/-- A match was found at a place that the search reached over the text in front of it. -/
theorem exists_reads_of_mem_matchesFrom {n : Nat} {c : Cursor} (h : m ∈ r.matchesFrom n c) :
    ∃ front d stop, c.Reads front d ∧ matchAt? r d = some (m, stop) := by
  induction n generalizing c with
  | zero => simp [matchesFrom] at h
  | succ n ih =>
    unfold matchesFrom at h
    split at h
    · rename_i m' stop hm
      rcases List.mem_cons.1 h with rfl | h
      · exact ⟨[], c, stop, .nil c, hm⟩
      · obtain ⟨⟨cs, -, hread⟩, -⟩ := exists_reads_of_matchAt? hm
        obtain ⟨front, d, stop', hfront, hd⟩ := ih h
        exact ⟨cs ++ front, d, stop', hread.append hfront, hd⟩
    · split at h
      · cases h
      · rename_i x next hn
        obtain ⟨front, d, stop, hfront, hd⟩ := ih h
        exact ⟨x :: front, d, stop, .cons hn hfront, hd⟩

end Regex

/-! ## Matches -/

open String (utf8Len)

namespace Cursor

variable {c d : Cursor} {cs : List Char}

theorem rest_of_next? {x : Char} (h : c.next? = some (x, d)) :
    c.rest = x :: d.rest ∧ d.pos = c.pos + x.utf8Size ∧ d.room = c.room - 1 := by
  unfold next? at h
  split at h
  · cases h
  · rename_i heq
    cases h
    exact ⟨heq, rfl, rfl⟩

theorem Reads.rest_eq (h : c.Reads cs d) : c.rest = cs ++ d.rest := by
  induction h with
  | nil => rfl
  | cons hn _ ih => rw [(rest_of_next? hn).1, ih, List.cons_append]

theorem Reads.pos_eq (h : c.Reads cs d) : d.pos = c.pos + utf8Len cs := by
  induction h with
  | nil => rfl
  | cons hn _ ih =>
    rw [ih, (rest_of_next? hn).2.1, String.utf8Len_cons]
    omega

/-- A cursor that knows how many characters are left goes on to know it. -/
theorem Reads.room_eq (h : c.Reads cs d) (hc : c.room = c.rest.length) : d.room = d.rest.length := by
  induction h with
  | nil => exact hc
  | cons hn _ ih =>
    obtain ⟨hrest, -, hroom⟩ := rest_of_next? hn
    refine ih ?_
    rw [hroom, hc, hrest, List.length_cons, Nat.add_sub_cancel]

end Cursor

namespace Regex

variable {r : Regex} {text : List Char} {m : Match}

/-- The match stands between the two other parts of the text. -/
structure Match.Around (m : Match) (text front back : List Char) : Prop where
  eq : text = front ++ (m.text ++ back)
  start : m.start = utf8Len front
  stop : m.stop = utf8Len (front ++ m.text)

/-- A match is a piece of the text that was searched, one that the expression spells, and it is not empty. -/
theorem exists_around_of_mem_findAll (h : m ∈ r.findAll text) :
    r.Spells m.text ∧ m.text ≠ [] ∧ ∃ front back, m.Around text front back := by
  obtain ⟨front, c, stop, hfront, hm⟩ := exists_reads_of_mem_matchesFrom h
  obtain ⟨⟨cs, hcs, hread⟩, hroom, hstart, hstop, htext⟩ := exists_reads_of_matchAt? hm
  have hrest : text = front ++ c.rest := hfront.rest_eq
  have hpos : c.pos = 0 + utf8Len front := hfront.pos_eq
  have hc := hfront.room_eq rfl
  have hd := hread.room_eq hc
  have hlength := congrArg List.length hread.rest_eq
  rw [List.length_append] at hlength
  have hbetween : m.text = cs := by
    rw [htext, between, hread.rest_eq, show c.room - stop.room = cs.length by omega, List.take_left]
  rw [hbetween]
  refine ⟨hcs, List.ne_nil_of_length_pos (by omega), front, stop.rest, ⟨?_, ?_, ?_⟩⟩
  · rw [hrest, hread.rest_eq, hbetween]
  · rw [hstart, hpos, Nat.zero_add]
  · rw [hstop, hread.pos_eq, hpos, hbetween, String.utf8Len_append, Nat.zero_add]

theorem text_infix_of_mem_findAll (h : m ∈ r.findAll text) : m.text <:+: text := by
  obtain ⟨-, -, front, back, hm⟩ := exists_around_of_mem_findAll h
  exact ⟨front, back, by rw [hm.eq, List.append_assoc]⟩

/-- No match is empty. -/
theorem start_lt_stop_of_mem_findAll (h : m ∈ r.findAll text) : m.start < m.stop := by
  obtain ⟨-, hne, front, back, hm⟩ := exists_around_of_mem_findAll h
  have hpos : 0 < utf8Len m.text := Nat.pos_of_ne_zero fun h0 => hne (String.utf8Len_eq_zero.1 h0)
  rw [hm.start, hm.stop, String.utf8Len_append]
  exact Nat.lt_add_of_pos_right hpos

/-! ## What is not blank -/

/-- Each way through the expression passes over a character that is not blank. -/
def Shows : Regex → Prop
  | char test => ∀ c, test c = true → Text.isBlank c = false
  | seq r s => r.Shows ∨ s.Shows
  | alt r s => r.Shows ∧ s.Shows
  | group _ r => r.Shows
  | _ => False

theorem exists_visible_of_spells (h : r.Shows) {cs : List Char} (hcs : r.Spells cs) :
    ∃ x ∈ cs, Text.isBlank x = false := by
  induction r generalizing cs with
  | char test =>
    obtain ⟨x, hx, rfl⟩ := hcs
    exact ⟨x, List.mem_singleton_self x, h x hx⟩
  | seq r s ihr ihs =>
    obtain ⟨front, back, hfront, hback, rfl⟩ := hcs
    rcases h with h | h
    · obtain ⟨x, hx, hvisible⟩ := ihr h hfront
      exact ⟨x, List.mem_append_left _ hx, hvisible⟩
    · obtain ⟨x, hx, hvisible⟩ := ihs h hback
      exact ⟨x, List.mem_append_right _ hx, hvisible⟩
  | alt r s ihr ihs =>
    rcases hcs with hcs | hcs
    · exact ihr h.1 hcs
    · exact ihs h.2 hcs
  | group name r ih => exact ih h hcs
  | empty => exact h.elim
  | lineStart => exact h.elim
  | lineEnd => exact h.elim
  | wordBoundary => exact h.elim
  | star => exact h.elim

/-- A match of an expression that shows something is not blank. -/
theorem exists_visible_of_mem_findAll (hr : r.Shows) (h : m ∈ r.findAll text) :
    ∃ x ∈ m.text, Text.isBlank x = false :=
  exists_visible_of_spells hr (exists_around_of_mem_findAll h).1

end Regex

end PromptPack
