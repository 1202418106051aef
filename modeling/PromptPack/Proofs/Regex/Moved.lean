import PromptPack.Proofs.Regex.Language
/-!
# Matching in a text with something in front

Two cursors are alike when the same characters are left behind them and a word does or does not end at both. An
expression that does not ask for the start of a line cannot tell them apart, wherever they stand (`run_alike`). So a
search in a text with something in front finds what a search in the text finds, only further on, once it has passed over
what stands in front (`findAll_append`).
-/

namespace PromptPack

open String (utf8Len)

namespace Cursor

variable {c c' d e e' : Cursor} {n : Nat} {x : Char} {cs ds : List Char}

/-- The same place in a text with `n` bytes more in front. -/
def later (c : Cursor) (n : Nat) : Cursor := { c with pos := c.pos + n }

/-- The second cursor stands `n` bytes further on, with the same behind it. Where fewer than `top` characters are left it
has the same character in front too; before that, only the kind of that character counts. -/
structure Alike (n top : Nat) (c c' : Cursor) : Prop where
  pos : c'.pos = c.pos + n
  rest : c'.rest = c.rest
  room : c'.room = c.room
  word : Regex.isWordAt c'.before = Regex.isWordAt c.before
  before : c.room < top → c'.before = c.before

theorem alike_later (n top : Nat) (c : Cursor) : Alike n top c (c.later n) := ⟨rfl, rfl, rfl, rfl, fun _ => rfl⟩

theorem Alike.eq_later {top : Nat} (h : Alike n top c c') (htop : c.room < top) : c' = c.later n := by
  obtain ⟨pos, before, rest, left⟩ := c'
  obtain ⟨rfl, rfl, rfl, -, hbefore⟩ := h
  obtain rfl := hbefore htop
  rfl

/-- Moving on by one character leads to the same place of the text. -/
theorem next?_alike {top : Nat} (h : Alike n top c c') :
    c'.next? = c.next?.map fun x => (x.1, x.2.later n) := by
  unfold next?
  rw [h.rest]
  cases c.rest with
  | nil => rfl
  | cons x xs =>
    simp only [h.pos, h.room, Option.map_some, later, Nat.add_right_comm]

/-! ## Moving over a text -/

theorem exists_reads (h : c.rest = cs ++ ds) : ∃ d, c.Reads cs d := by
  induction cs generalizing c with
  | nil => exact ⟨c, .nil c⟩
  | cons x cs ih =>
    have hn : c.next? = some (x, ⟨c.pos + x.utf8Size, some x, cs ++ ds, c.room - 1⟩) := by
      rw [next?, h]
      rfl
    obtain ⟨d, hd⟩ := ih (c := ⟨c.pos + x.utf8Size, some x, cs ++ ds, c.room - 1⟩) rfl
    exact ⟨d, .cons hn hd⟩

theorem Reads.unique (h : c.Reads cs d) (h' : c.Reads cs e) : d = e := by
  induction h with
  | nil =>
    cases h'
    rfl
  | cons hn _ ih =>
    cases h' with
    | cons hn' h' =>
      rw [hn] at hn'
      obtain rfl := (Prod.mk.inj (Option.some.inj hn')).2
      exact ih h'

/-- A text without word characters ends no word. -/
theorem Reads.isWordAt_before (h : c.Reads cs d) (hc : Regex.isWordAt c.before = false)
    (hcs : ∀ x ∈ cs, Text.isWord x = false) : Regex.isWordAt d.before = false := by
  induction h with
  | nil => exact hc
  | @cons c d e x cs hn _ ih =>
    rw [List.forall_mem_cons] at hcs
    refine ih ?_ hcs.2
    unfold next? at hn
    split at hn
    · cases hn
    · cases hn
      exact hcs.1

/-- Behind what stands in front of a text, a cursor is alike the start of the text. -/
theorem alike_start_append {front text : List Char} (h : (Cursor.start (front ++ text)).Reads front d)
    (hfront : ∀ x ∈ front, Text.isWord x = false) :
    Alike (utf8Len front) (Cursor.start text).room (Cursor.start text) d where
  pos := h.pos_eq
  rest := (List.append_cancel_left h.rest_eq).symm
  room := by
    rw [h.room_eq rfl, ← List.append_cancel_left h.rest_eq]
    rfl
  word := h.isWordAt_before rfl hfront
  before hlt := absurd hlt (Nat.lt_irrefl _)

end Cursor

namespace Regex

open Cursor

/-- Whether the expression asks where lines start. -/
def asksLineStart : Regex → Bool
  | lineStart => true
  | seq r s => r.asksLineStart || s.asksLineStart
  | alt r s => r.asksLineStart || s.asksLineStart
  | star _ r => r.asksLineStart
  | group _ r => r.asksLineStart
  | _ => false

section

variable {α β : Type} {R : α → β → Prop} {n top : Nat} {c c' : Cursor}

/-- Going on from alike cursors has related results. -/
def Agree (R : α → β → Prop) (n top : Nat) (k : Cursor → Groups → Option α) (k' : Cursor → Groups → Option β) : Prop :=
  ∀ c c' g, Alike n top c c' → Option.Rel R (k c g) (k' c' g)

theorem rel_orElse {a b : Option α} {a' b' : Option β} (h : Option.Rel R a a') (h' : Option.Rel R b b') :
    Option.Rel R (a.orElse fun _ => b) (a'.orElse fun _ => b') := by
  cases h with
  | some h => exact .some h
  | none => exact h'

theorem rel_ite {p p' : Prop} [Decidable p] [Decidable p'] (hp : p' ↔ p) {a : Option α} {a' : Option β}
    (h : Option.Rel R a a') : Option.Rel R (if p then a else none) (if p' then a' else none) := by
  by_cases hp' : p
  · rw [if_pos hp', if_pos (hp.2 hp')]
    exact h
  · rw [if_neg hp', if_neg (hp.not.2 hp')]
    exact .none

theorem iterate_alike {step : Cursor → Groups → (Cursor → Groups → Option α) → Option α}
    {step' : Cursor → Groups → (Cursor → Groups → Option β) → Option β} {k : Cursor → Groups → Option α}
    {k' : Cursor → Groups → Option β} {greed : Greed}
    (hstep : ∀ k k', Agree R n top k k' → Agree R n top (fun c g => step c g k) (fun c g => step' c g k'))
    (hk : Agree R n top k k') (fuel : Nat) :
    Agree R n top (iterate step greed k fuel) (iterate step' greed k' fuel) := by
  induction fuel with
  | zero =>
    intro c c' g h
    simp only [iterate]
    exact hk c c' g h
  | succ fuel ih =>
    intro c c' g h
    have honward : Option.Rel R (step c g (iterate.onward step greed k fuel c))
        (step' c' g (iterate.onward step' greed k' fuel c')) := by
      refine hstep _ _ (fun d d' g' hd => ?_) c c' g h
      unfold iterate.onward
      exact rel_ite (by rw [h.room, hd.room]) (ih d d' g' hd)
    cases greed with
    | greedy =>
      simp only [iterate]
      exact rel_orElse honward (hk c c' g h)
    | lazy =>
      simp only [iterate]
      exact rel_orElse (hk c c' g h) honward

/-- A run from alike cursors has related results if its continuation has. -/
theorem run_alike {r : Regex} (hr : r.asksLineStart = false) {k : Cursor → Groups → Option α}
    {k' : Cursor → Groups → Option β} (hk : Agree R n top k k') : Agree R n top (fun c g => r.run c g k) (fun c g => r.run c g k') := by
  induction r generalizing k k' with
  | empty => exact hk
  | char test =>
    intro c c' g h
    simp only [run]
    rw [next?_alike h]
    cases c.next? with
    | none => exact .none
    | some x => exact rel_ite Iff.rfl (hk _ _ g (alike_later n top x.2))
  | lineStart => cases hr
  | lineEnd =>
    intro c c' g h
    simp only [run]
    rw [h.rest]
    cases c.rest with
    | nil => exact hk c c' g h
    | cons x xs => exact rel_ite Iff.rfl (hk c c' g h)
  | wordBoundary =>
    intro c c' g h
    simp only [run]
    rw [h.rest, h.word]
    exact rel_ite Iff.rfl (hk c c' g h)
  | seq r s ihr ihs =>
    obtain ⟨hr, hs⟩ := Bool.or_eq_false_iff.1 hr
    exact ihr hr (ihs hs hk)
  | alt r s ihr ihs =>
    obtain ⟨hr, hs⟩ := Bool.or_eq_false_iff.1 hr
    exact fun c c' g h => rel_orElse (ihr hr hk c c' g h) (ihs hs hk c c' g h)
  | star greed r ih =>
    intro c c' g h
    simp only [run]
    rw [h.room]
    exact iterate_alike (fun _ _ => ih hr) hk c.room c c' g h
  | group name r ih =>
    intro c c' g h
    refine ih hr (fun d d' g' hd => ?_) c c' g h
    have hbetween : between c' d' = between c d := by rw [between, between, h.rest, h.room, hd.room]
    rw [hbetween]
    exact hk d d' _ hd

end

/-! ## Matches -/

/-- The same match in a text with `n` bytes more in front. -/
def Match.later (m : Match) (n : Nat) : Match := { m with start := m.start + n, stop := m.stop + n }

/-- The same match, and the same place behind it, `n` bytes further on. -/
def further (n : Nat) (x : Match × Cursor) : Match × Cursor := (x.1.later n, x.2.later n)

variable {r : Regex} {n : Nat} {c c' d : Cursor}

/-- At alike cursors the same match begins, and the search goes on at the same place behind it. -/
theorem matchAt?_alike (hr : r.asksLineStart = false) (h : Alike n c.room c c') :
    matchAt? r c' = (matchAt? r c).map (further n) := by
  have hrun : Option.Rel (fun x y => Alike n c.room x.1 y.1 ∧ y.2 = x.2)
      (r.run c [] fun stop groups => some (stop, groups)) (r.run c' [] fun stop groups => some (stop, groups)) :=
    run_alike hr (fun e e' g he => .some ⟨he, rfl⟩) c c' [] h
  unfold matchAt?
  generalize r.run c [] (fun stop groups => some (stop, groups)) = found at hrun ⊢
  generalize r.run c' [] (fun stop groups => some (stop, groups)) = found' at hrun ⊢
  cases hrun with
  | none => rfl
  | @some x y hy =>
    obtain ⟨stop, groups⟩ := x
    obtain ⟨stop', groups'⟩ := y
    obtain ⟨halike, rfl⟩ := hy
    dsimp only at halike ⊢
    rw [halike.room, h.room]
    by_cases hroom : stop.room < c.room
    · -- The match took a character, so the places behind it are the same.
      obtain rfl := halike.eq_later hroom
      have hbetween : between c' (stop.later n) = between c stop := by rw [between, between, h.rest, h.room, halike.room]
      rw [if_pos hroom, if_pos hroom, hbetween, h.pos]
      rfl
    · rw [if_neg hroom, if_neg hroom, Option.map_none]

/-! ## Searching -/

/-- What matches at a place matches `n` bytes further on. -/
def MovesBy (r : Regex) (n : Nat) : Prop := ∀ c, matchAt? r (c.later n) = (matchAt? r c).map (further n)

theorem movesBy_of_asksLineStart (hr : r.asksLineStart = false) (n : Nat) : r.MovesBy n := fun c =>
  matchAt?_alike hr (alike_later n c.room c)

/-- A search that begins like another one goes on like it. -/
theorem matchesFrom_of_first (hr : r.MovesBy n) (fuel : Nat) (h : Alike n c.room c c')
    (hfirst : matchAt? r c' = (matchAt? r c).map (further n)) :
    r.matchesFrom fuel c' = (r.matchesFrom fuel c).map (·.later n) := by
  induction fuel generalizing c c' with
  | zero => rfl
  | succ fuel ih =>
    have hlater (d : Cursor) : r.matchesFrom fuel (d.later n) = (r.matchesFrom fuel d).map (·.later n) :=
      ih (alike_later n d.room d) (hr d)
    rw [matchesFrom, matchesFrom, hfirst, next?_alike h]
    cases matchAt? r c with
    | some x => simp only [Option.map_some, further, hlater, List.map_cons]
    | none =>
      cases c.next? with
      | none => rfl
      | some x => exact hlater x.2

/-- A search is over when no character is left. -/
theorem matchesFrom_eq_nil (hc : c.room = c.rest.length) (hroom : c.room = 0) (fuel : Nat) :
    r.matchesFrom fuel c = [] := by
  have hrest : c.rest = [] := List.eq_nil_of_length_eq_zero (hc ▸ hroom)
  cases fuel with
  | zero => rfl
  | succ fuel =>
    rw [matchesFrom]
    cases hm : matchAt? r c with
    | some x =>
      have hlt := (exists_reads_of_matchAt? hm).2.1
      omega
    | none => simp [next?, hrest]

/-- Fuel for the characters that are left is as good as more of it. -/
theorem matchesFrom_eq_of_le {fuel fuel' : Nat} (hc : c.room = c.rest.length) (hfuel : c.room ≤ fuel)
    (hfuel' : c.room ≤ fuel') : r.matchesFrom fuel c = r.matchesFrom fuel' c := by
  induction fuel generalizing c fuel' with
  | zero => rw [matchesFrom_eq_nil hc (Nat.le_zero.1 hfuel), matchesFrom_eq_nil hc (Nat.le_zero.1 hfuel)]
  | succ fuel ih =>
    cases fuel' with
    | zero => rw [matchesFrom_eq_nil hc (Nat.le_zero.1 hfuel'), matchesFrom_eq_nil hc (Nat.le_zero.1 hfuel')]
    | succ fuel' =>
      rw [matchesFrom, matchesFrom]
      cases hm : matchAt? r c with
      | some x =>
        obtain ⟨⟨cs, -, hread⟩, hroom, -⟩ := exists_reads_of_matchAt? hm
        exact congrArg (x.1 :: ·) (ih (hread.room_eq hc) (by omega) (by omega))
      | none =>
        cases hn : c.next? with
        | none => rfl
        | some x =>
          obtain ⟨hrest, -, hroom⟩ := rest_of_next? hn
          have hlength : c.rest.length = x.2.rest.length + 1 := by rw [hrest, List.length_cons]
          exact ih (by omega) (by omega) (by omega)

/-- What matches at the start of a text is found, and the search goes on behind it. -/
theorem findAll_of_matchAt? {text : List Char} {m : Match} (h : matchAt? r (Cursor.start text) = some (m, d)) :
    r.findAll text = m :: r.matchesFrom d.room d := by
  obtain ⟨⟨cs, -, hread⟩, hroom, -⟩ := exists_reads_of_matchAt? h
  have hlength : d.room < text.length := hroom
  obtain ⟨fuel, hfuel⟩ := Nat.exists_eq_add_one_of_ne_zero (Nat.ne_zero_of_lt hlength)
  rw [findAll, hfuel, matchesFrom, h]
  exact congrArg (m :: ·) (matchesFrom_eq_of_le (hread.room_eq rfl) (by omega) (Nat.le_refl _))

theorem mem_findAll_of_matchAt? {text : List Char} {m : Match} (h : matchAt? r (Cursor.start text) = some (m, d)) :
    m ∈ r.findAll text := by
  rw [findAll_of_matchAt? h]
  exact List.mem_cons_self

/-- A search finds nothing in front of the place where it begins. -/
theorem le_start_of_mem_matchesFrom {fuel : Nat} {m : Match} (h : m ∈ r.matchesFrom fuel c) : c.pos ≤ m.start := by
  obtain ⟨front, d, stop, hread, hm⟩ := exists_reads_of_mem_matchesFrom h
  rw [(exists_reads_of_matchAt? hm).2.2.1, hread.pos_eq]
  exact Nat.le_add_right _ _

/-- A search passes over the places where nothing matches. -/
theorem matchesFrom_reads {cs : List Char} (h : c.Reads cs d) (fuel : Nat)
    (hnone : ∀ front x back e, cs = front ++ x :: back → c.Reads front e → matchAt? r e = none) :
    r.matchesFrom (cs.length + fuel) c = r.matchesFrom fuel d := by
  induction h with
  | nil => rw [List.length_nil, Nat.zero_add]
  | @cons c e d x cs hn hread ih =>
    rw [List.length_cons, Nat.add_right_comm, matchesFrom, hnone [] x cs c rfl (.nil c), hn]
    refine ih fun front y back e' heq hread' => ?_
    exact hnone (x :: front) y back e' (by rw [heq, List.cons_append]) (.cons hn hread')

/-- In a text with something in front that neither matches nor ends in a word, the same is found further on. -/
theorem findAll_append (hr : r.asksLineStart = false) {front : List Char} (hword : ∀ x ∈ front, Text.isWord x = false)
    (hnone : ∀ x ∈ front, ∀ c, c.rest.head? = some x → matchAt? r c = none) (text : List Char) :
    r.findAll (front ++ text) = (r.findAll text).map (·.later (utf8Len front)) := by
  obtain ⟨d, hread⟩ := exists_reads (c := Cursor.start (front ++ text)) rfl
  have halike := alike_start_append hread hword
  rw [findAll, findAll, List.length_append, matchesFrom_reads hread]
  · exact matchesFrom_of_first (movesBy_of_asksLineStart hr _) _ halike (matchAt?_alike hr halike)
  · intro above x below e heq hread'
    refine hnone x (by simp [heq]) e ?_
    have hrest := hread'.rest_eq
    rw [show (Cursor.start (front ++ text)).rest = front ++ text from rfl, heq, List.append_assoc] at hrest
    rw [← List.append_cancel_left hrest]
    rfl

end Regex

end PromptPack
