import PromptPack.ByName
/-!
# Values in the order of names

Changing the value of a name keeps the order of the names, gives that name its new value and leaves every other
value alone (`lookup_change`). So lists in order are told apart by what they say of each name (`Sorted.ext`).
-/

namespace PromptPack.ByName

variable {α : Type} {values values' : ByName α} {fresh x : α} {name other : String} {f : α → α}

/-- Each name comes behind all those in front of it; so none comes twice. -/
def Sorted (values : ByName α) : Prop := values.Pairwise fun x y => x.1 < y.1

theorem lookup_cons_of_ne (hne : other ≠ name) (x : α) (values : ByName α) :
    List.lookup other ((name, x) :: values) = List.lookup other values := by
  rw [List.lookup_cons, beq_eq_false_iff_ne.2 hne]

/-- A name in front of all names has no value. -/
theorem lookup_eq_none_of_lt (h : ∀ y ∈ values, name < y.1) : values.lookup name = none := by
  rw [List.lookup_eq_none_iff]
  intro y hy
  have hlt := h y hy
  rw [bne_iff_ne]
  rintro rfl
  exact String.lt_irrefl _ hlt

theorem lookup_eq_none_of_lt_first (h : Sorted ((other, x) :: values)) (hlt : name < other) :
    List.lookup name ((other, x) :: values) = none := by
  refine lookup_eq_none_of_lt (List.forall_mem_cons.2 ⟨hlt, fun y hy => ?_⟩)
  exact String.lt_trans hlt ((List.pairwise_cons.1 h).1 y hy)

theorem lt_of_not_lt_of_ne (hlt : ¬ name < other) (hne : name ≠ other) : other < name := by
  refine String.not_le.1 fun hle => hne ?_
  exact String.le_antisymm hle (String.not_lt.1 hlt)

/-! ## Lists in order as functions of the name -/

theorem Sorted.nodup (h : Sorted values) : values.Nodup := by
  refine h.imp fun {x y} hlt heq => ?_
  rw [heq] at hlt
  exact String.lt_irrefl _ hlt

theorem Sorted.mem_iff (h : Sorted values) : (name, x) ∈ values ↔ values.lookup name = some x := by
  induction values with
  | nil => simp
  | cons y values ih =>
    obtain ⟨other, z⟩ := y
    obtain ⟨hfirst, hrest⟩ := List.pairwise_cons.1 h
    rw [List.mem_cons, Prod.mk.injEq, ih hrest]
    by_cases heq : name = other
    · subst heq
      rw [List.lookup_cons_self, lookup_eq_none_of_lt hfirst]
      simp [eq_comm]
    · rw [lookup_cons_of_ne heq]
      simp [heq]

theorem Sorted.ext (h : Sorted values) (h' : Sorted values')
    (heq : ∀ name, values.lookup name = values'.lookup name) : values = values' := by
  have hperm : values.Perm values' := by
    rw [List.perm_ext_iff_of_nodup h.nodup h'.nodup]
    rintro ⟨name, n⟩
    rw [h.mem_iff, h'.mem_iff, heq]
  exact hperm.eq_of_pairwise (fun a b _ _ hab hba => absurd hba (String.lt_asymm hab)) h h'

/-! ## Changing one value -/

/-- What is there after a change was there before, or is the new value of the name. -/
theorem mem_change {y : String × α} (h : y ∈ change fresh name f values) :
    y ∈ values ∨ ∃ x, (x = fresh ∨ (name, x) ∈ values) ∧ y = (name, f x) := by
  induction values with
  | nil => exact .inr ⟨fresh, .inl rfl, List.mem_singleton.1 h⟩
  | cons first values ih =>
    obtain ⟨other, x⟩ := first
    unfold change at h
    split at h
    · rcases List.mem_cons.1 h with rfl | h
      · exact .inr ⟨fresh, .inl rfl, rfl⟩
      · exact .inl h
    · split at h
      · rename_i heq
        obtain rfl : name = other := by simpa using heq
        rcases List.mem_cons.1 h with rfl | h
        · exact .inr ⟨x, .inr List.mem_cons_self, rfl⟩
        · exact .inl (List.mem_cons_of_mem _ h)
      · rcases List.mem_cons.1 h with rfl | h
        · exact .inl List.mem_cons_self
        · refine (ih h).imp (List.mem_cons_of_mem _) ?_
          rintro ⟨x, hx, rfl⟩
          exact ⟨x, hx.imp_right (List.mem_cons_of_mem _), rfl⟩

theorem Sorted.change (h : Sorted values) (fresh : α) (name : String) (f : α → α) :
    Sorted (ByName.change fresh name f values) := by
  induction values with
  | nil => exact List.pairwise_singleton _ _
  | cons first values ih =>
    obtain ⟨other, x⟩ := first
    obtain ⟨hfirst, hrest⟩ := List.pairwise_cons.1 h
    unfold ByName.change
    split
    · rename_i hlt
      refine List.pairwise_cons.2 ⟨List.forall_mem_cons.2 ⟨hlt, fun y hy => ?_⟩, h⟩
      exact String.lt_trans hlt (hfirst y hy)
    · rename_i hlt
      split
      · rename_i heq
        obtain rfl : name = other := by simpa using heq
        exact List.pairwise_cons.2 ⟨hfirst, hrest⟩
      · rename_i hne
        refine List.pairwise_cons.2 ⟨fun y hy => ?_, ih hrest⟩
        rcases mem_change hy with hy | ⟨z, -, rfl⟩
        · exact hfirst y hy
        · exact lt_of_not_lt_of_ne hlt (by simpa using hne)

theorem lookup_change_self (h : Sorted values) (fresh : α) (name : String) (f : α → α) :
    (change fresh name f values).lookup name = some (f ((values.lookup name).getD fresh)) := by
  induction values with
  | nil => exact List.lookup_cons_self
  | cons first values ih =>
    obtain ⟨other, x⟩ := first
    have hrest := (List.pairwise_cons.1 h).2
    unfold change
    split
    · rename_i hlt
      rw [List.lookup_cons_self, lookup_eq_none_of_lt_first h hlt, Option.getD_none]
    · split
      · rename_i heq
        obtain rfl : name = other := by simpa using heq
        rw [List.lookup_cons_self, List.lookup_cons_self, Option.getD_some]
      · rename_i hne
        have hne : name ≠ other := by simpa using hne
        rw [lookup_cons_of_ne hne, lookup_cons_of_ne hne, ih hrest]

theorem lookup_change_of_ne (hne : other ≠ name) (fresh : α) (f : α → α) (values : ByName α) :
    (change fresh name f values).lookup other = values.lookup other := by
  induction values with
  | nil => exact lookup_cons_of_ne hne _ _
  | cons first values ih =>
    obtain ⟨n, x⟩ := first
    unfold change
    split
    · exact lookup_cons_of_ne hne _ _
    · split
      · rename_i heq
        obtain rfl : name = n := by simpa using heq
        rw [lookup_cons_of_ne hne, lookup_cons_of_ne hne]
      · rw [List.lookup_cons, List.lookup_cons, ih]

/-- Changing the value of a name says something new of that name only. -/
theorem lookup_change (h : Sorted values) (fresh : α) (name : String) (f : α → α) (other : String) :
    (change fresh name f values).lookup other =
      if other = name then some (f ((values.lookup name).getD fresh)) else values.lookup other := by
  split
  · rename_i heq
    rw [heq, lookup_change_self h]
  · rename_i hne
    exact lookup_change_of_ne hne fresh f values

/-- Changing a value adds its name, when it is new, to the names. -/
theorem mem_names_change : other ∈ (change fresh name f values).map (·.1) ↔ other = name ∨ other ∈ values.map (·.1) := by
  induction values with
  | nil => simp [change]
  | cons first values ih =>
    obtain ⟨n, x⟩ := first
    unfold change
    split
    · simp
    · split
      · rename_i heq
        obtain rfl : name = n := by simpa using heq
        simp
      · rw [List.map_cons, List.mem_cons, ih, List.map_cons, List.mem_cons, or_left_comm]

end PromptPack.ByName
