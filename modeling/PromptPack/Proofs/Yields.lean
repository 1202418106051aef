import Mathlib
/-!
# What computations yield, and what they fail with

A computation that can fail yields at most one value. What holds of that value, if there is one, follows from what
holds of the values of its steps; what holds of the cause of a failure follows from what holds of theirs. A computation
that is done for each item of a list yields the list of what it yields for each (`mapM_eq_ok_iff`), or fails as it does
for the first item for which it fails (`mapM_eq_error_iff`).
-/

namespace PromptPack

variable {ε ε' α β : Type} {x : Except ε α} {P P' : α → Prop} {Q : β → Prop} {C : ε → Prop}

/-! ## Values -/

/-- What the computation yields, if it does not fail, has the property. -/
def Yields (x : Except ε α) (P : α → Prop) : Prop := ∀ a, x = .ok a → P a

@[simp]
theorem yields_ok {a : α} : Yields (.ok a : Except ε α) P ↔ P a := by simp [Yields]

@[simp]
theorem yields_error {e : ε} : Yields (.error e : Except ε α) P := by simp [Yields]

@[simp]
theorem yields_pure {a : α} : Yields (pure a : Except ε α) P ↔ P a := yields_ok

theorem Yields.imp (h : Yields x P) (himp : ∀ a, P a → P' a) : Yields x P' := fun a ha => himp a (h a ha)

theorem Yields.bind {f : α → Except ε β} (h : Yields x P) (hf : ∀ a, P a → Yields (f a) Q) : Yields (x >>= f) Q := by
  cases x with
  | error e => exact yields_error
  | ok a => exact hf a (h a rfl)

/-- Two ways to a value from which the computation goes on. -/
theorem Yields.ite_bind {c : Prop} [Decidable c] {y : Except ε α} {f : α → Except ε β} (hx : c → Yields x P)
    (hy : ¬c → Yields y P) (hf : ∀ a, P a → Yields (f a) Q) : Yields (if c then x >>= f else y >>= f) Q := by
  split
  · exact (hx ‹_›).bind hf
  · exact (hy ‹_›).bind hf

theorem Yields.map {f : α → β} (h : Yields x P) (hf : ∀ a, P a → Q (f a)) : Yields (x.map f) Q := by
  cases x with
  | error e => exact yields_error
  | ok a => exact yields_ok.2 (hf a (h a rfl))

theorem Yields.mapError (h : Yields x P) (f : ε → ε') : Yields (x.mapError f) P := by
  cases x with
  | error e => exact yields_error
  | ok a => exact yields_ok.2 (h a rfl)

theorem yields_mapM {f : α → Except ε β} {as : List α} (h : ∀ a ∈ as, Yields (f a) Q) :
    Yields (as.mapM f) fun bs => ∀ b ∈ bs, Q b := by
  induction as with
  | nil => simp
  | cons a as ih =>
    rw [List.forall_mem_cons] at h
    rw [List.mapM_cons]
    refine h.1.bind fun b hb => (ih h.2).bind fun bs hbs => ?_
    exact yields_pure.2 (List.forall_mem_cons.2 ⟨hb, hbs⟩)

theorem yields_foldlM {f : β → α → Except ε β} {as : List α} {b : β} (hb : Q b)
    (h : ∀ b, ∀ a ∈ as, Q b → Yields (f b a) Q) : Yields (as.foldlM f b) Q := by
  induction as generalizing b with
  | nil => exact yields_pure.2 hb
  | cons a as ih =>
    rw [List.foldlM_cons]
    exact (h b a List.mem_cons_self hb).bind fun b' hb' => ih hb' fun b'' a' ha' => h b'' a' (List.mem_cons_of_mem _ ha')

/-! ## Failures -/

/-- What the computation fails with, if it fails, has the property. -/
def Fails (x : Except ε α) (C : ε → Prop) : Prop := ∀ e, x = .error e → C e

@[simp]
theorem fails_ok {a : α} : Fails (.ok a : Except ε α) C := by simp [Fails]

@[simp]
theorem fails_error {e : ε} : Fails (.error e : Except ε α) C ↔ C e := by simp [Fails]

@[simp]
theorem fails_pure {a : α} : Fails (pure a : Except ε α) C := fails_ok

/-- What comes behind a step may count on what the step yields. -/
theorem Fails.bind {f : α → Except ε β} (h : Fails x C) (hf : ∀ a, x = .ok a → Fails (f a) C) : Fails (x >>= f) C := by
  cases x with
  | error e => exact fails_error.2 (h e rfl)
  | ok a => exact hf a rfl

theorem Fails.map (h : Fails x C) (f : α → β) : Fails (x.map f) C := by
  cases x with
  | error e => exact fails_error.2 (h e rfl)
  | ok a => exact fails_ok

theorem Fails.mapError {D : ε' → Prop} {f : ε → ε'} (h : Fails x C) (hf : ∀ e, C e → D (f e)) :
    Fails (x.mapError f) D := by
  cases x with
  | error e => exact fails_error.2 (hf e (h e rfl))
  | ok a => exact fails_ok

/-- Whatever the cause was, it is told by one of another kind. -/
theorem fails_mapError {D : ε' → Prop} {f : ε → ε'} (h : ∀ e, D (f e)) : Fails (x.mapError f) D := by
  cases x with
  | error e => exact fails_error.2 (h e)
  | ok a => exact fails_ok

theorem fails_mapM {f : α → Except ε β} {as : List α} (h : ∀ a ∈ as, Fails (f a) C) : Fails (as.mapM f) C := by
  induction as with
  | nil => exact fails_pure
  | cons a as ih =>
    rw [List.forall_mem_cons] at h
    rw [List.mapM_cons]
    exact h.1.bind fun b _ => (ih h.2).bind fun bs _ => fails_pure

theorem fails_foldlM {f : β → α → Except ε β} {as : List α} {b : β} (h : ∀ b, ∀ a ∈ as, Fails (f b a) C) :
    Fails (as.foldlM f b) C := by
  induction as generalizing b with
  | nil => exact fails_pure
  | cons a as ih =>
    rw [List.foldlM_cons]
    exact (h b a List.mem_cons_self).bind fun b' _ => ih fun b'' a' ha' => h b'' a' (List.mem_cons_of_mem _ ha')

/-! ## One after the other -/

variable {f : α → Except ε β} {as : List α} {bs : List β} {e : ε}

theorem mapM_eq_ok_iff : as.mapM f = .ok bs ↔ List.Forall₂ (fun a b => f a = .ok b) as bs := by
  induction as generalizing bs with
  | nil => cases bs <;> simp [pure, Except.pure]
  | cons a as ih =>
    rw [List.mapM_cons]
    cases ha : f a with
    | error e => cases bs <;> simp [bind, Except.bind, ha]
    | ok b =>
      cases has : as.mapM f with
      | error e => cases bs <;> simp [bind, Except.bind, ← ih, has]
      | ok rest => cases bs <;> simp [bind, Except.bind, pure, Except.pure, ← ih, has, ha]

theorem exists_mapM_eq_ok_iff : (∃ bs, as.mapM f = .ok bs) ↔ ∀ a ∈ as, ∃ b, f a = .ok b := by
  simp only [mapM_eq_ok_iff]
  induction as with
  | nil => simp
  | cons a as ih => simp [List.forall₂_cons_left_iff, ← ih]

theorem mapM_cons_eq_error_iff {a : α} {b : β} (h : f a = .ok b) : (a :: as).mapM f = .error e ↔ as.mapM f = .error e := by
  rw [List.mapM_cons, h]
  cases as.mapM f <;> simp [bind, Except.bind, pure, Except.pure]

/-- The first that fails decides. -/
theorem mapM_eq_error_iff : as.mapM f = .error e ↔
    ∃ front a back, as = front ++ a :: back ∧ (∀ x ∈ front, ∃ b, f x = .ok b) ∧ f a = .error e := by
  induction as with
  | nil => simp [pure, Except.pure]
  | cons a as ih =>
    cases ha : f a with
    | error e' =>
      rw [List.mapM_cons, ha]
      constructor
      · intro h
        obtain rfl := Except.error.inj h
        exact ⟨[], a, as, rfl, nofun, ha⟩
      · rintro ⟨front, a', back, heq, hfront, ha'⟩
        cases front with
        | nil =>
          obtain ⟨rfl, -⟩ := List.cons.inj heq
          rw [Except.error.inj (ha.symm.trans ha')]
          rfl
        | cons x front =>
          obtain ⟨rfl, -⟩ := List.cons.inj heq
          obtain ⟨b, hb⟩ := hfront _ List.mem_cons_self
          rw [ha] at hb
          cases hb
    | ok b =>
      refine (mapM_cons_eq_error_iff ha).trans (ih.trans ⟨?_, ?_⟩)
      · rintro ⟨front, a', back, rfl, hfront, ha'⟩
        exact ⟨a :: front, a', back, rfl, List.forall_mem_cons.2 ⟨⟨b, ha⟩, hfront⟩, ha'⟩
      · rintro ⟨front, a', back, heq, hfront, ha'⟩
        cases front with
        | nil =>
          obtain ⟨rfl, -⟩ := List.cons.inj heq
          rw [ha] at ha'
          cases ha'
        | cons x front =>
          exact ⟨front, a', back, (List.cons.inj heq).2, (List.forall_mem_cons.1 hfront).2, ha'⟩

/-- Items for which the computation does not fail can be left out. -/
theorem mapM_filter_eq_error_iff {keep : α → Bool} (h : ∀ a ∈ as, keep a = false → ∃ b, f a = .ok b) :
    (as.filter keep).mapM f = .error e ↔ as.mapM f = .error e := by
  induction as with
  | nil => rfl
  | cons a as ih =>
    rw [List.forall_mem_cons] at h
    cases hkeep : keep a with
    | false =>
      obtain ⟨b, hb⟩ := h.1 hkeep
      rw [List.filter_cons, hkeep, if_neg Bool.false_ne_true, ih h.2, mapM_cons_eq_error_iff hb]
    | true =>
      rw [List.filter_cons, hkeep, if_pos rfl]
      cases ha : f a with
      | error e' => simp [List.mapM_cons, ha, bind, Except.bind]
      | ok b => rw [mapM_cons_eq_error_iff ha, mapM_cons_eq_error_iff ha, ih h.2]

theorem mapM_concat_eq_error_iff {a : α} {b : β} (h : f a = .ok b) :
    (as ++ [a]).mapM f = .error e ↔ as.mapM f = .error e := by
  rw [List.mapM_append, List.mapM_cons, h]
  cases as.mapM f <;> simp [bind, Except.bind, pure, Except.pure]

/-- A list is read back when each of its items is. -/
theorem mapM_map_eq_some {α β : Type} {write : α → β} {read : β → Option α} (h : ∀ a, read (write a) = some a)
    (l : List α) : (l.map write).mapM read = some l := by
  induction l with
  | nil => rfl
  | cons a l ih => simp [h a, ih]

end PromptPack
