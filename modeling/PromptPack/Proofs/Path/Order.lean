import PromptPack.Path
/-!
# The order of paths

Chains of components are compared as words are: this is a linear order, in which everything below
a path comes right behind it.
-/

namespace PromptPack.Path

open Std

/-! ## A linear order -/

theorem Component.compare_swap (a b : Component) : a.compare b = (b.compare a).swap := by
  cases a <;> cases b
  case name.name => exact OrientedOrd.eq_swap
  all_goals rfl

instance : TransCmp Component.compare where
  eq_swap := Component.compare_swap _ _
  isLE_trans {a b c} hab hbc := by
    cases a <;> cases b <;> cases c
    case name.name.name => exact TransOrd.isLE_trans hab hbc
    all_goals first | rfl | contradiction

instance : LawfulEqCmp Component.compare where
  compare_self {a} := by
    cases a
    case name => exact ReflOrd.compare_self
    all_goals rfl
  eq_of_compare {a b} h := by
    cases a <;> cases b
    case name.name => exact congrArg Component.name (LawfulEqOrd.eq_of_compare h)
    all_goals first | rfl | contradiction

theorem compareComponents_eq_compareLex : compareComponents = List.compareLex Component.compare := by
  funext as bs
  induction as generalizing bs with
  | nil => cases bs <;> rfl
  | cons a as ih =>
    cases bs with
    | nil => rfl
    | cons b bs => rw [compareComponents, ih, List.compareLex_cons_cons]

instance : TransCmp compareComponents := compareComponents_eq_compareLex ▸ inferInstance

instance : LawfulEqCmp compareComponents := compareComponents_eq_compareLex ▸ inferInstance

theorem Component.compare_self (c : Component) : c.compare c = .eq := ReflCmp.compare_self

theorem compareComponents_swap (as bs : List Component) : compareComponents as bs = (compareComponents bs as).swap :=
  OrientedCmp.eq_swap

theorem le_iff {p q : Path} : p.le q ↔ (compareComponents p.components q.components).isLE := by
  rw [le, bne_iff_ne, Ordering.isLE_iff_ne_gt]

theorem le_trans {p q r : Path} (hpq : p.le q) (hqr : q.le r) : p.le r :=
  le_iff.2 (TransCmp.isLE_trans (le_iff.1 hpq) (le_iff.1 hqr))

theorem le_total (p q : Path) : p.le q || q.le p := by
  rw [Bool.or_eq_true, le_iff, le_iff, compareComponents_swap q.components]
  cases compareComponents p.components q.components <;> decide

/-! ## What lies below a path -/

theorem not_lt_of_prefix {d e : List Component} (h : d <+: e) : compareComponents e d ≠ .lt := by
  obtain ⟨rest, rfl⟩ := h
  induction d with
  | nil => cases rest <;> exact nofun
  | cons c d ih =>
    rw [List.cons_append, compareComponents, Component.compare_self]
    exact ih

/-- Whatever comes between a path and something below it lies below it too. -/
theorem prefix_of_between {d e f : List Component} (hpre : d <+: f) (hde : compareComponents d e = .lt)
    (hef : compareComponents e f = .lt) : d <+: e := by
  induction d generalizing e f with
  | nil => exact List.nil_prefix
  | cons c d ih =>
    obtain ⟨rest, rfl⟩ := hpre
    cases e with
    | nil => cases hde
    | cons x e =>
      rw [compareComponents, Ordering.then_eq_lt] at hde
      rw [List.cons_append, compareComponents, Ordering.then_eq_lt] at hef
      -- `d` and `f` have the first component in common, so `e` between them has it too.
      rcases hde with hlt | ⟨heq, hde⟩
      · have hgt := OrientedCmp.gt_of_lt hlt
        rcases hef with hlt' | ⟨heq, -⟩
        · rw [hgt] at hlt'
          cases hlt'
        · rw [hgt] at heq
          cases heq
      · obtain rfl := LawfulEqCmp.eq_of_compare heq
        rw [Component.compare_self] at hef
        rcases hef with h | ⟨-, hef⟩
        · cases h
        · exact (List.cons_prefix_cons).2 ⟨rfl, ih (List.prefix_append d rest) hde hef⟩

variable {α : Type} {key : α → List Component} {entries : List α}

/-- Sorting by path what has distinct paths puts it in strictly ascending order. -/
theorem mergeSort_increasing (path : α → Path)
    (h : entries.Pairwise fun a b => (path a).components ≠ (path b).components) :
    (entries.mergeSort fun a b => (path a).le (path b)).Pairwise
      fun a b => compareComponents (path a).components (path b).components = .lt := by
  have htrans (a b c : α) (hab : (path a).le (path b) = true) (hbc : (path b).le (path c) = true) :
      (path a).le (path c) = true := le_trans hab hbc
  have htotal (a b : α) : ((path a).le (path b) || (path b).le (path a)) = true := le_total (path a) (path b)
  have hsorted := List.pairwise_mergeSort htrans htotal entries
  have hdistinct := h.perm (List.mergeSort_perm entries fun a b => (path a).le (path b)).symm Ne.symm
  refine List.Pairwise.imp₂ (fun a b hle hne => ?_) hsorted hdistinct
  cases hcmp : compareComponents (path a).components (path b).components with
  | lt => rfl
  | eq => exact absurd (LawfulEqCmp.eq_of_compare hcmp) hne
  | gt =>
    have := le_iff.1 hle
    rw [hcmp] at this
    cases this

theorem exists_below_split {d : α} (h : entries.Pairwise fun a b => compareComponents (key a) (key b) = .lt)
    (hd : ∀ e ∈ entries, compareComponents (key d) (key e) = .lt) :
    ∃ below after, entries = below ++ after ∧ (∀ e ∈ below, key d <+: key e) ∧ ∀ e ∈ after, ¬ key d <+: key e := by
  induction entries with
  | nil => exact ⟨[], [], rfl, nofun, nofun⟩
  | cons e rest ih =>
    rw [List.pairwise_cons] at h
    rw [List.forall_mem_cons] at hd
    by_cases hpre : key d <+: key e
    · obtain ⟨below, after, rfl, hbelow, hafter⟩ := ih h.2 hd.2
      exact ⟨e :: below, after, rfl, List.forall_mem_cons.2 ⟨hpre, hbelow⟩, hafter⟩
    · refine ⟨[], e :: rest, rfl, nofun, List.forall_mem_cons.2 ⟨hpre, fun f hf hf' => hpre ?_⟩⟩
      exact prefix_of_between hf' hd.1 (h.1 f hf)

/-- In ascending order, everything below an entry directly follows it. -/
theorem below_follows {d : α} (h : entries.Pairwise fun a b => compareComponents (key a) (key b) = .lt)
    (hd : d ∈ entries) :
    ∃ before below after, entries = before ++ d :: (below ++ after) ∧ (∀ e ∈ below, key d <+: key e) ∧
      ∀ e ∈ before ++ after, ¬ key d <+: key e := by
  obtain ⟨before, rest, rfl⟩ := List.append_of_mem hd
  rw [List.pairwise_append, List.pairwise_cons] at h
  obtain ⟨-, ⟨hbehind, hrest⟩, hbefore⟩ := h
  obtain ⟨below, after, rfl, hbelow, hafter⟩ := exists_below_split hrest hbehind
  refine ⟨before, below, after, rfl, hbelow, List.forall_mem_append.2 ⟨fun e he hpre => ?_, hafter⟩⟩
  exact not_lt_of_prefix hpre (hbefore e he d List.mem_cons_self)

end PromptPack.Path
