import Mathlib.Data.List.Induction
import PromptPack.Listing
import PromptPack.Proofs.ByName
/-!
# What stands in a listing

Placing an entry gives the node at its names the flags of the entry, makes directories on the way where nothing
stood, and leaves the flags of all other nodes alone (`flags?_insert`). So where no two entries have the same
names, each has its flags in the tree (`flags?_of_mem`), and whatever else stands there is a directory on the way
to an entry (`exists_of_flags?`).
-/

namespace PromptPack

/-- The flags are those of the entry, when it has these names, or of a directory on the way to it. -/
def WalkEntry.Explains (e : WalkEntry) (names : List String) (d x : Bool) : Prop :=
  names = e.names ∧ d = e.isDir ∧ x = e.excluded ∨ names <+: e.names ∧ names ≠ e.names ∧ d = true ∧ x = false

theorem WalkEntry.Explains.leads {e : WalkEntry} {names : List String} {d x : Bool} (h : e.Explains names d x) :
    names <+: e.names := by
  rcases h with ⟨rfl, -⟩ | ⟨h, -⟩
  · exact List.prefix_refl _
  · exact h

namespace Listing

variable {t c : Listing} {name : String} {names path rest : List String} {d x : Bool}

theorem children_node (d x : Bool) (cs : ByName Listing) : (node d x cs).children = cs := rfl

/-- What stands at a chain of names below a node. -/
def at? (t : Listing) : List String → Option Listing
  | [] => some t
  | name :: rest => (t.children.lookup name).bind fun c => c.at? rest

/-- Whether a node is a directory, and whether it is left out. -/
def flags (t : Listing) : Bool × Bool := (t.isDir, t.excluded)

/-- The flags of what stands at a chain of names. -/
def flags? (t : Listing) (names : List String) : Option (Bool × Bool) := (t.at? names).map flags

theorem flags?_nil (t : Listing) : t.flags? [] = some t.flags := rfl

theorem flags?_cons (t : Listing) (name : String) (rest : List String) :
    t.flags? (name :: rest) = (t.children.lookup name).bind fun c => c.flags? rest := by
  rw [flags?, at?, Option.map_bind]
  rfl

theorem flags?_cons_of_childless (h : t.children = []) (name : String) (rest : List String) :
    t.flags? (name :: rest) = none := by
  rw [flags?_cons, h, List.lookup_nil, Option.bind_none]

/-! ## Children in order -/

/-- The children of every node stand in the order of their names. -/
inductive Ordered : Listing → Prop
  | node {d x : Bool} {cs : ByName Listing} (sorted : ByName.Sorted cs) (below : ∀ y ∈ cs, Ordered y.2) :
    Ordered (node d x cs)

theorem Ordered.sorted (h : t.Ordered) : ByName.Sorted t.children := by
  cases h with
  | node sorted _ => exact sorted

theorem Ordered.child (h : t.Ordered) : ∀ y ∈ t.children, y.2.Ordered := by
  cases h with
  | node _ below => exact below

theorem Ordered.of_childless (h : t.children = []) : t.Ordered := by
  obtain ⟨d, x, cs⟩ := t
  obtain rfl : cs = [] := h
  exact .node List.Pairwise.nil (by simp)

theorem Ordered.of_lookup (h : t.Ordered) (hc : t.children.lookup name = some c) : c.Ordered :=
  h.child _ (h.sorted.mem_iff.2 hc)

/-- Changing one child in a way that keeps the order below it keeps the order. -/
theorem Ordered.change {cs : ByName Listing} {fresh : Listing} {f : Listing → Listing}
    (sorted : ByName.Sorted cs) (below : ∀ y ∈ cs, y.2.Ordered) (hfresh : fresh.Ordered)
    (hf : ∀ c, c.Ordered → (f c).Ordered) (d x : Bool) (name : String) :
    (Listing.node d x (ByName.change fresh name f cs)).Ordered := by
  refine .node (sorted.change fresh name f) fun y hy => ?_
  rcases ByName.mem_change hy with hy | ⟨c, rfl | hc, rfl⟩
  · exact below y hy
  · exact hf c hfresh
  · exact hf c (below _ hc)

theorem Ordered.getD_lookup (h : t.Ordered) (name : String) : ((t.children.lookup name).getD directory).Ordered := by
  cases hlookup : t.children.lookup name with
  | none => exact .of_childless rfl
  | some c => exact h.of_lookup hlookup

theorem insert_singleton (d x : Bool) (leaf : String) (t : Listing) : insert d x [leaf] t = node t.isDir t.excluded
    (ByName.change (node false false []) leaf (fun c => node d x c.children) t.children) := by
  cases t
  rfl

theorem insert_cons (hne : rest ≠ []) (d x : Bool) (name : String) (t : Listing) : insert d x (name :: rest) t =
    node t.isDir t.excluded (ByName.change directory name (insert d x rest) t.children) := by
  cases t
  cases rest with
  | nil => exact absurd rfl hne
  | cons next rest => rfl

theorem Ordered.insert (h : t.Ordered) (d x : Bool) (path : List String) : (insert d x path t).Ordered := by
  induction path generalizing t with
  | nil => exact h
  | cons name rest ih =>
    by_cases hrest : rest = []
    · subst hrest
      rw [insert_singleton]
      exact .change h.sorted h.child (.of_childless rfl) (fun c hc => .node hc.sorted hc.child) _ _ name
    · rw [insert_cons hrest]
      exact .change h.sorted h.child (.of_childless rfl) (fun c hc => ih hc) _ _ name

/-! ## Placing an entry -/

theorem flags_insert (d x : Bool) (path : List String) (t : Listing) : (insert d x path t).flags = t.flags := by
  obtain ⟨d', x', cs⟩ := t
  rcases path with _ | ⟨leaf, _ | ⟨next, rest⟩⟩ <;> rfl

/-- What has been changed in the children of a node shows below the changed child only. -/
theorem flags?_change (h : t.Ordered) (fresh : Listing) (f : Listing → Listing) (d x : Bool) (leaf name : String)
    (names : List String) : (node d x (ByName.change fresh leaf f t.children)).flags? (name :: names) =
      if name = leaf then (f ((t.children.lookup leaf).getD fresh)).flags? names else t.flags? (name :: names) := by
  rw [flags?_cons, flags?_cons, children_node, ByName.lookup_change h.sorted]
  split <;> rfl

theorem flags?_node_children (d x : Bool) (c : Listing) (names : List String) :
    (node d x c.children).flags? names = if names = [] then some (d, x) else c.flags? names := by
  cases names with
  | nil => rfl
  | cons name rest => rw [if_neg (List.cons_ne_nil name rest), flags?_cons, flags?_cons]; rfl

/-- Below a child it makes no difference that it would be new. -/
theorem flags?_getD {fresh : Listing} (hfresh : fresh.children = []) (hne : names ≠ []) (t : Listing) (name : String) :
    ((t.children.lookup name).getD fresh).flags? names = t.flags? (name :: names) := by
  rw [flags?_cons]
  cases t.children.lookup name with
  | some c => rfl
  | none =>
    cases names with
    | nil => exact absurd rfl hne
    | cons next rest => exact flags?_cons_of_childless hfresh next rest

theorem or_flags?_getD (t : Listing) (name : String) (names : List String) :
    (((t.children.lookup name).getD directory).flags? names).or (some (true, false)) =
      (t.flags? (name :: names)).or (some (true, false)) := by
  cases names with
  | nil =>
    rw [flags?_cons]
    cases t.children.lookup name <;> rfl
  | cons next rest => rw [flags?_getD rfl (List.cons_ne_nil next rest)]

/-- Placing an entry sets the flags at its names. On the way there it makes the directories that are missing. -/
theorem flags?_insert (h : t.Ordered) (hne : path ≠ []) (d x : Bool) (names : List String) :
    (insert d x path t).flags? names =
      if names = path then some (d, x)
      else if names <+: path then (t.flags? names).or (some (true, false))
      else t.flags? names := by
  induction path generalizing t names with
  | nil => exact absurd rfl hne
  | cons leaf rest ih =>
    cases names with
    | nil =>
      rw [flags?_nil, flags_insert, if_neg (List.cons_ne_nil leaf rest).symm, if_pos List.nil_prefix, flags?_nil]
      rfl
    | cons name names =>
      simp only [List.cons.injEq, List.cons_prefix_cons]
      by_cases hname : name = leaf
      · subst hname
        by_cases hrest : rest = []
        · subst hrest
          rw [insert_singleton, flags?_change h, if_pos rfl, flags?_node_children]
          by_cases hnames : names = []
          · simp [hnames]
          · rw [if_neg hnames, flags?_getD rfl hnames]
            simp [hnames]
        · -- The child on the way counts as a directory without children when it is missing.
          rw [insert_cons hrest, flags?_change h, if_pos rfl, ih (h.getD_lookup name) hrest, or_flags?_getD]
          simp only [true_and]
          by_cases hfront : names <+: rest
          · rw [if_pos hfront, if_pos hfront]
          · rw [if_neg hfront, if_neg hfront, flags?_getD rfl]
            rintro rfl
            exact hfront List.nil_prefix
      · by_cases hrest : rest = []
        · subst hrest
          rw [insert_singleton, flags?_change h]
          simp [hname]
        · rw [insert_cons hrest, flags?_change h]
          simp [hname]

/-! ## The tree of some entries -/

variable {entries : List WalkEntry} {e : WalkEntry}

theorem ofEntries_concat (entries : List WalkEntry) (e : WalkEntry) :
    ofEntries (entries ++ [e]) = insert e.isDir e.excluded e.names (ofEntries entries) := by
  rw [ofEntries, List.foldl_append]
  rfl

theorem ordered_ofEntries (entries : List WalkEntry) : (ofEntries entries).Ordered := by
  induction entries using List.reverseRecOn with
  | nil => exact .of_childless rfl
  | append_singleton entries e ih =>
    rw [ofEntries_concat]
    exact ih.insert ..

theorem flags?_ofEntries_concat (hne : e.names ≠ []) (entries : List WalkEntry) (names : List String) :
    (ofEntries (entries ++ [e])).flags? names =
      if names = e.names then some (e.isDir, e.excluded)
      else if names <+: e.names then ((ofEntries entries).flags? names).or (some (true, false))
      else (ofEntries entries).flags? names := by
  rw [ofEntries_concat, flags?_insert (ordered_ofEntries entries) hne]

/-- Where no two entries have the same names, each has its flags in the tree. -/
theorem flags?_of_mem (hne : ∀ e ∈ entries, e.names ≠ []) (hdistinct : entries.Pairwise fun a b => a.names ≠ b.names)
    (he : e ∈ entries) : (ofEntries entries).flags? e.names = some (e.isDir, e.excluded) := by
  induction entries using List.reverseRecOn with
  | nil => cases he
  | append_singleton entries last ih =>
    rw [List.pairwise_append] at hdistinct
    rw [flags?_ofEntries_concat (hne last (by simp))]
    rcases List.mem_append.1 he with he | he
    · -- The last entry has other names; on the way to it the flags that are there stay.
      rw [ih (fun e he => hne e (List.mem_append_left _ he)) hdistinct.1 he,
        if_neg (hdistinct.2.2 e he last (List.mem_singleton_self last))]
      split <;> rfl
    · rw [if_pos (by rw [List.mem_singleton.1 he]), List.mem_singleton.1 he]

/-- What stands in the tree is an entry, or a directory on the way to one. -/
theorem exists_of_flags? (hne : ∀ e ∈ entries, e.names ≠ []) (hnames : names ≠ [])
    (h : (ofEntries entries).flags? names = some (d, x)) : ∃ e ∈ entries, e.Explains names d x := by
  induction entries using List.reverseRecOn generalizing d x with
  | nil =>
    cases names with
    | nil => exact absurd rfl hnames
    | cons name rest =>
      rw [flags?_cons_of_childless rfl] at h
      cases h
  | append_singleton entries last ih =>
    have hearlier (h : (ofEntries entries).flags? names = some (d, x)) :
        ∃ e ∈ entries ++ [last], e.Explains names d x := by
      obtain ⟨e, he, hexplains⟩ := ih (fun e he => hne e (List.mem_append_left _ he)) h
      exact ⟨e, List.mem_append_left [last] he, hexplains⟩
    rw [flags?_ofEntries_concat (hne last (by simp))] at h
    -- The last entry says what it is itself, and makes a directory of what is missing on the way to it.
    split at h
    · rename_i heq
      cases h
      exact ⟨last, by simp, .inl ⟨heq, rfl, rfl⟩⟩
    · rename_i hother
      split at h
      · rename_i hfront
        cases hflags : (ofEntries entries).flags? names with
        | some flags =>
          rw [hflags, Option.some_or] at h
          exact hearlier (hflags.trans h)
        | none =>
          rw [hflags, Option.none_or] at h
          cases h
          exact ⟨last, by simp, .inr ⟨hfront, hother, rfl, rfl⟩⟩
      · exact hearlier h

end Listing

end PromptPack
