import Mathlib.Data.List.Perm.Basic
import PromptPack.Proofs.Packing.Agreement
import PromptPack.Proofs.Path.Names
/-!
# Entries in another order

The tree of some entries is told by the flags at each chain of names (`Ordered.ext`), and of two entries with different
names it makes no difference which is placed first: what the one makes on its way, the other overwrites or leaves alone
(`insert_comm`). So entries with different names have one tree, in whatever order they come (`ofEntries_eq_of_perm`), and
one drawing (`draw_eq_of_perm`).
-/

namespace PromptPack.Listing

variable {entries entries' : List WalkEntry} {names path path' : List String} {t t' : Listing}

/-! ## Trees are told by their flags -/

theorem Ordered.ext (h : t.Ordered) (h' : t'.Ordered) (hflags : ∀ names, t.flags? names = t'.flags? names) : t = t' := by
  induction h generalizing t' with
  | @node d x cs sorted below ih =>
    obtain ⟨d', x', cs'⟩ := t'
    obtain ⟨rfl, rfl⟩ : d = d' ∧ x = x' := by simpa [flags?_nil, flags, isDir, excluded] using hflags []
    have hchild (name : String) (names : List String) : ((cs.lookup name).bind fun c => c.flags? names) =
        (cs'.lookup name).bind fun c => c.flags? names := by
      have hname := hflags (name :: names)
      rw [flags?_cons, flags?_cons] at hname
      exact hname
    congr 1
    refine sorted.ext h'.sorted fun name => ?_
    -- A child has flags of its own, so it stands in both trees or in neither.
    have hflag := hchild name []
    cases hc : cs.lookup name with
    | none =>
      cases hc' : cs'.lookup name with
      | none => rfl
      | some c' =>
        rw [hc, hc'] at hflag
        cases hflag
    | some c =>
      cases hc' : cs'.lookup name with
      | none =>
        rw [hc, hc'] at hflag
        cases hflag
      | some c' =>
        have hsame : c = c' := ih (name, c) (sorted.mem_iff.2 hc) (h'.of_lookup hc') fun names => by
          simpa only [hc, hc', Option.bind_some] using hchild name names
        exact congrArg some hsame

/-! ## Two entries -/

theorem insert_nil (d x : Bool) (t : Listing) : insert d x [] t = t := by
  cases t
  rfl

/-- Of two entries with different names either may be placed first. -/
theorem insert_comm (h : t.Ordered) (hne : path ≠ path') (d x d' x' : Bool) :
    insert d x path (insert d' x' path' t) = insert d' x' path' (insert d x path t) := by
  by_cases hpath : path = []
  · rw [hpath, insert_nil, insert_nil]
  by_cases hpath' : path' = []
  · rw [hpath', insert_nil, insert_nil]
  refine ((h.insert d' x' path').insert d x path).ext ((h.insert d x path).insert d' x' path') fun names => ?_
  rw [flags?_insert (h.insert d' x' path') hpath, flags?_insert h hpath', flags?_insert (h.insert d x path) hpath',
    flags?_insert h hpath]
  by_cases hnames : names = path
  · -- The flags of an entry stay when it lies on the way to the other.
    rw [if_pos hnames, if_neg (hnames ▸ hne), if_pos hnames]
    split <;> rfl
  rw [if_neg hnames, if_neg hnames]
  by_cases hnames' : names = path'
  · rw [if_pos hnames', if_pos hnames']
    split <;> rfl
  rw [if_neg hnames', if_neg hnames']
  -- What lies on both ways is made once, by whichever comes first.
  by_cases hway : names <+: path <;> by_cases hway' : names <+: path' <;> simp only [hway, hway', if_true, if_false]

/-! ## All entries -/

/-- Entries with different names give the same tree in any order, whatever was placed before them. -/
theorem foldl_insertEntry_eq_of_perm (hperm : entries.Perm entries')
    (hdistinct : entries.Pairwise fun a b => a.names ≠ b.names) (h : t.Ordered) :
    entries.foldl insertEntry t = entries'.foldl insertEntry t := by
  induction hperm generalizing t with
  | nil => rfl
  | cons e _ ih => exact ih (List.pairwise_cons.1 hdistinct).2 (h.insert ..)
  | swap e e' rest =>
    have hne : e'.names ≠ e.names := (List.pairwise_cons.1 hdistinct).1 e List.mem_cons_self
    rw [List.foldl_cons, List.foldl_cons, List.foldl_cons, List.foldl_cons]
    exact congrArg (fun t => rest.foldl insertEntry t) (insert_comm h hne.symm ..)
  | trans hperm _ ih ih' => exact (ih hdistinct h).trans (ih' ((hperm.pairwise_iff Ne.symm).1 hdistinct) h)

theorem ofEntries_eq_of_perm (hperm : entries.Perm entries')
    (hdistinct : entries.Pairwise fun a b => a.names ≠ b.names) : ofEntries entries = ofEntries entries' :=
  foldl_insertEntry_eq_of_perm hperm hdistinct (.of_childless rfl)

theorem shown_perm (hperm : entries.Perm entries') (hide : Bool) : (shown entries hide).Perm (shown entries' hide) := by
  cases hide with
  | false => exact hperm
  | true => exact hperm.filter _

/-- The drawing does not depend on the order of the entries: a child may come in front of its parent, and a parent may be
missing. -/
theorem draw_eq_of_perm (root : Path) (hide : Bool) (hperm : entries.Perm entries')
    (hdistinct : entries.Pairwise fun a b => a.rel.components ≠ b.rel.components) :
    draw root entries hide = draw root entries' hide := by
  have hshown := shown_perm hperm hide
  have hnames : (shown entries hide).Pairwise fun a b => a.names ≠ b.names :=
    (hdistinct.sublist (shown_sublist entries hide)).imp fun hab heq => hab (Path.components_eq_of_texts_eq heq)
  have htree := ofEntries_eq_of_perm hshown hnames
  have hmarks : (shown entries hide).any (·.excluded) = (shown entries' hide).any (·.excluded) := hshown.any_eq
  have htext (entries : List WalkEntry) : draw root entries hide =
      (if (shown entries hide).any (·.excluded) then markHeader ++ "\n\n" else "") ++ dropNewlines
        (String.intercalate "\n" ((rootName root ++ "/") :: drawChildren "" (ofEntries (shown entries hide)))) := rfl
  rw [htext, htext, htree, hmarks]

/-- A directory behind the excluded file in it, and a file of a directory that is no entry. -/
def childrenFirst : List WalkEntry :=
  [{ path := ⟨"src/d/f"⟩, rel := ⟨"d/f"⟩, isDir := false, excluded := true },
    { path := ⟨"src/z"⟩, rel := ⟨"z"⟩, isDir := false, excluded := false },
    { path := ⟨"src/e/g"⟩, rel := ⟨"e/g"⟩, isDir := false, excluded := false },
    { path := ⟨"src/d"⟩, rel := ⟨"d"⟩, isDir := true, excluded := false }]

theorem draw_childrenFirst_eq_of_perm : childrenFirst.Perm childrenFirst.reverse ∧
    (childrenFirst.Pairwise fun a b => a.rel.components ≠ b.rel.components) ∧
    draw ⟨"src"⟩ childrenFirst false =
      markHeader ++ "\n\nsrc/\n├── d/\n│   └── f ❌\n├── e/\n│   └── g\n└── z" ∧
    draw ⟨"src"⟩ childrenFirst.reverse false =
      markHeader ++ "\n\nsrc/\n├── d/\n│   └── f ❌\n├── e/\n│   └── g\n└── z" := by
  have hperm : childrenFirst.Perm childrenFirst.reverse := (List.reverse_perm childrenFirst).symm
  have hdistinct : childrenFirst.Pairwise fun a b => a.rel.components ≠ b.rel.components := by decide
  have hdrawing : draw ⟨"src"⟩ childrenFirst false =
      markHeader ++ "\n\nsrc/\n├── d/\n│   └── f ❌\n├── e/\n│   └── g\n└── z" := by decide +kernel
  exact ⟨hperm, hdistinct, hdrawing, (draw_eq_of_perm ⟨"src"⟩ false hperm hdistinct).symm.trans hdrawing⟩

end PromptPack.Listing
