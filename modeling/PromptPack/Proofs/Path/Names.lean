import PromptPack.Path
import PromptPack.Proofs.Text.Pieces
/-!
# Paths made of names

A chain of names is written with slashes between them. The components of such a path are the names
again, and joining one more name puts it at the end of the chain. The components of any path are told by
their texts (`components_eq_of_texts_eq`).
-/

namespace PromptPack.Path

open Text

/-- What a file system allows as the name of an item. -/
structure IsName (s : String) : Prop where
  nonempty : s ≠ ""
  notHere : s ≠ "."
  notUp : s ≠ ".."
  noSlash : '/' ∉ s.toList

instance : DecidablePred IsName := fun s =>
  decidable_of_iff (s ≠ "" ∧ s ≠ "." ∧ s ≠ ".." ∧ '/' ∉ s.toList)
    ⟨fun ⟨hempty, hhere, hup, hslash⟩ => ⟨hempty, hhere, hup, hslash⟩,
      fun h => ⟨h.nonempty, h.notHere, h.notUp, h.noSlash⟩⟩

/-- The path of a chain of names. -/
def ofNames (names : List String) : Path := ⟨String.intercalate "/" names⟩

theorem IsName.ofPiece? {s : String} (h : IsName s) : Component.ofPiece? s = some (.name s) := by
  simp [Component.ofPiece?, h.nonempty, h.notHere, h.notUp]

theorem isAbsolute_eq_false {s : String} (h : s.toList.head? ≠ some '/') : isAbsolute ⟨s⟩ = false := by
  rw [isAbsolute, Bool.eq_false_iff, Ne, startsWith_iff]
  rintro ⟨rest, heq⟩
  exact h (by rw [heq]; rfl)

theorem IsName.head?_ne {s : String} (h : IsName s) (rest : List Char) : (s.toList ++ rest).head? ≠ some '/' := by
  cases hs : s.toList with
  | nil => exact absurd (String.toList_eq_nil_iff.1 hs) h.nonempty
  | cons c cs =>
    have := h.noSlash
    rw [hs, List.mem_cons, not_or] at this
    simpa using Ne.symm this.1

variable {names : List String}

theorem pieces_ofNames (hne : names ≠ []) (h : ∀ n ∈ names, IsName n) : (ofNames names).pieces = names :=
  splitAt_intercalate (d := '/') hne fun n hn => (h n hn).noSlash

theorem isAbsolute_ofNames (h : ∀ n ∈ names, IsName n) : (ofNames names).isAbsolute = false := by
  apply isAbsolute_eq_false
  cases names with
  | nil => simp
  | cons n rest =>
    have hn := h n List.mem_cons_self
    cases rest with
    | nil => simpa using hn.head?_ne []
    | cons next rest =>
      rw [String.intercalate_cons_cons, String.append_assoc, String.toList_append]
      exact hn.head?_ne _

theorem filterMap_ofPiece? (h : ∀ n ∈ names, IsName n) :
    names.filterMap Component.ofPiece? = names.map .name := by
  induction names with
  | nil => rfl
  | cons n rest ih =>
    simp only [List.forall_mem_cons] at h
    rw [List.filterMap_cons_some h.1.ofPiece?, ih h.2, List.map_cons]

/-- The components of a path made of names are the names. -/
theorem components_ofNames (hne : names ≠ []) (h : ∀ n ∈ names, IsName n) :
    (ofNames names).components = names.map .name := by
  have hhead : names.head? ≠ some "." := by
    intro heq
    exact (h "." (List.mem_of_head? heq)).notHere rfl
  simp only [components, pieces_ofNames hne h, isAbsolute_ofNames h, filterMap_ofPiece? h]
  simp [hhead]

/-! ## Joining a name -/

theorem endsWith_slash_eq_false {s : String} (h : s.toList.getLast? ≠ some '/') : endsWith s "/" = false := by
  rw [Bool.eq_false_iff, Ne, endsWith_iff]
  rintro ⟨front, heq⟩
  exact h (by rw [heq]; exact List.getLast?_concat)

theorem exists_last_char (hne : names ≠ []) (h : ∀ n ∈ names, IsName n) :
    ∃ c, (ofNames names).text.toList.getLast? = some c ∧ c ≠ '/' := by
  induction names with
  | nil => exact absurd rfl hne
  | cons n rest ih =>
    simp only [List.forall_mem_cons] at h
    by_cases hrest : rest = []
    · subst hrest
      have hn : n.toList ≠ [] := fun heq => h.1.nonempty (String.toList_eq_nil_iff.1 heq)
      refine ⟨n.toList.getLast hn, ?_, fun heq => h.1.noSlash (heq ▸ List.getLast_mem hn)⟩
      rw [ofNames, String.intercalate_singleton, List.getLast?_eq_some_getLast hn]
    · obtain ⟨c, hc, hslash⟩ := ih hrest h.2
      refine ⟨c, ?_, hslash⟩
      rw [ofNames, String.intercalate_cons_of_ne_nil hrest, String.toList_append, List.getLast?_append]
      simpa only [ofNames, Option.some_or] using congrArg (Option.or · _) hc

theorem text_ofNames_append (hne : names ≠ []) (name : String) :
    (ofNames (names ++ [name])).text = (ofNames names).text ++ "/" ++ name := by
  rw [ofNames, String.intercalate_append_of_ne_nil hne (by simp), String.intercalate_singleton, ofNames]

theorem join_ofNames_singleton (p : Path) (name : String) : p.join ⟨name⟩ = p.join (ofNames [name]) := by
  rw [ofNames, String.intercalate_singleton]

theorem join_of_last_char {p : Path} {c : Char} (hc : p.text.toList.getLast? = some c) (hslash : c ≠ '/')
    {name : String} (hname : IsName name) : p.join ⟨name⟩ = ⟨p.text ++ "/" ++ name⟩ := by
  have habs : isAbsolute ⟨name⟩ = false := isAbsolute_eq_false (by simpa using hname.head?_ne [])
  have hends : endsWith p.text "/" = false := endsWith_slash_eq_false (by simpa [hc] using hslash)
  have hne : p.text ≠ "" := by
    intro heq
    simp [heq] at hc
  simp [join, habs, hends, hne]

/-- Joining relative paths puts the same text in front of each. -/
theorem exists_join_front (p : Path) :
    ∃ front, ∀ q : Path, q.isAbsolute = false → p.join q = ⟨front ++ q.text⟩ := by
  by_cases h : (p.text == "" || endsWith p.text "/") = true
  · refine ⟨p.text, fun q hq => ?_⟩
    simp only [join, hq, h, Bool.false_eq_true, if_false, if_true]
  · refine ⟨p.text ++ "/", fun q hq => ?_⟩
    simp only [join, hq, h, Bool.false_eq_true, if_false]

/-- Joining a chain of names and then one more is joining the longer chain. -/
theorem join_ofNames_join (p : Path) (hne : names ≠ []) (h : ∀ n ∈ names, IsName n) {name : String}
    (hname : IsName name) : (p.join (ofNames names)).join ⟨name⟩ = p.join (ofNames (names ++ [name])) := by
  obtain ⟨front, hfront⟩ := exists_join_front p
  obtain ⟨c, hc, hslash⟩ := exists_last_char hne h
  have hlast : (front ++ (ofNames names).text).toList.getLast? = some c := by
    rw [String.toList_append, List.getLast?_append, hc, Option.some_or]
  have hall : ∀ n ∈ names ++ [name], IsName n := by
    rw [List.forall_mem_append]
    exact ⟨h, List.forall_mem_singleton.2 hname⟩
  rw [hfront _ (isAbsolute_ofNames h), hfront _ (isAbsolute_ofNames hall), join_of_last_char hlast hslash hname,
    text_ofNames_append hne, String.append_assoc, String.append_assoc, String.append_assoc]

/-- Different chains of names lead to different paths. -/
theorem join_ofNames_inj (p : Path) {names' : List String} (hne : names ≠ []) (h : ∀ n ∈ names, IsName n)
    (hne' : names' ≠ []) (h' : ∀ n ∈ names', IsName n) :
    p.join (ofNames names) = p.join (ofNames names') ↔ names = names' := by
  refine ⟨fun heq => ?_, fun heq => by rw [heq]⟩
  obtain ⟨front, hfront⟩ := exists_join_front p
  rw [hfront _ (isAbsolute_ofNames h), hfront _ (isAbsolute_ofNames h'), Path.mk.injEq, String.append_right_inj] at heq
  have hcomponents : (ofNames names).components = (ofNames names').components := by
    rw [show ofNames names = ofNames names' from congrArg Path.mk heq]
  rw [components_ofNames hne h, components_ofNames hne' h'] at hcomponents
  exact (List.map_inj_right fun _ _ hname => Component.name.inj hname).1 hcomponents

/-! ## The components of joined paths -/

theorem isAbsolute_append {s : String} (hs : s ≠ "") (t : String) : isAbsolute ⟨s ++ t⟩ = isAbsolute ⟨s⟩ := by
  obtain ⟨c, cs, hcs⟩ := List.exists_cons_of_ne_nil fun heq => hs (String.toList_eq_nil_iff.1 heq)
  rw [Bool.eq_iff_iff, isAbsolute, isAbsolute, startsWith_iff, startsWith_iff, String.toList_append, hcs]
  constructor
  · rintro ⟨rest, heq⟩
    exact ⟨cs, congrArg (· :: cs) (List.cons.inj heq).1⟩
  · rintro ⟨rest, heq⟩
    exact ⟨cs ++ t.toList, congrArg (· :: (cs ++ t.toList)) (List.cons.inj heq).1⟩

/-- The pieces of a path to which names are joined: its own, but for an empty one at its end, and the names. -/
theorem exists_pieces_join {p : Path} (hp : p.text ≠ "") (hne : names ≠ []) (h : ∀ n ∈ names, IsName n) :
    ∃ front idle t, front ≠ [] ∧ idle.filterMap Component.ofPiece? = [] ∧ p.pieces = front ++ idle ∧
      (p.join (ofNames names)).pieces = front ++ names ∧ p.join (ofNames names) = ⟨p.text ++ t⟩ := by
  have habs := isAbsolute_ofNames h
  have hnonempty (s : String) : splitAt '/' s ≠ [] := by simp [splitAt, splitChars_ne_nil]
  by_cases hslash : endsWith p.text "/" = true
  · obtain ⟨cs, hcs⟩ := endsWith_iff.1 hslash
    have htext : p.text = String.ofList cs ++ "/" := by
      rw [← String.toList_inj, String.toList_append, String.toList_ofList, hcs]
    have hjoin : p.join (ofNames names) = ⟨p.text ++ (ofNames names).text⟩ := by simp [join, habs, hslash]
    refine ⟨splitAt '/' (String.ofList cs), [""], (ofNames names).text, hnonempty _, by decide, ?_, ?_, hjoin⟩
    · rw [pieces, htext, ← String.append_empty (s := String.ofList cs ++ "/"), splitAt_append_slash]
      rfl
    · rw [hjoin, pieces, htext, splitAt_append_slash]
      exact congrArg _ (pieces_ofNames hne h)
  · have hjoin : p.join (ofNames names) = ⟨p.text ++ "/" ++ (ofNames names).text⟩ := by
      simp [join, habs, hslash, hp]
    refine ⟨p.pieces, [], "/" ++ (ofNames names).text, hnonempty _, rfl, by simp, ?_, ?_⟩
    · rw [hjoin, pieces, splitAt_append_slash]
      exact congrArg _ (pieces_ofNames hne h)
    · rw [hjoin, String.append_assoc]

/-- The components of a path to which names are joined are its own and the names. -/
theorem components_join_ofNames {p : Path} (hp : p.text ≠ "") (hne : names ≠ []) (h : ∀ n ∈ names, IsName n) :
    (p.join (ofNames names)).components = p.components ++ names.map .name := by
  obtain ⟨front, idle, t, hfront, hidle, hpieces, hjoined, htext⟩ := exists_pieces_join hp hne h
  have habs : (p.join (ofNames names)).isAbsolute = p.isAbsolute := by
    rw [htext]
    exact isAbsolute_append hp t
  have hhead : (p.join (ofNames names)).pieces.head? = p.pieces.head? := by
    obtain ⟨piece, rest, rfl⟩ := List.exists_cons_of_ne_nil hfront
    rw [hpieces, hjoined, List.cons_append, List.cons_append, List.head?_cons, List.head?_cons]
  have hnamed : (p.join (ofNames names)).pieces.filterMap Component.ofPiece? =
      p.pieces.filterMap Component.ofPiece? ++ names.map .name := by
    rw [hpieces, hjoined, List.filterMap_append, List.filterMap_append, hidle, List.append_nil, filterMap_ofPiece? h]
  simp only [components, hhead, hnamed, habs]
  split
  · rfl
  · split <;> rfl

/-! ## The texts of components -/

/-- What is called a name among the components of a path is one. -/
theorem isName_of_mem_components {p : Path} {s : String} (h : .name s ∈ p.components) : IsName s := by
  have hpieces : ∃ piece ∈ p.pieces, Component.ofPiece? piece = some (.name s) := by
    unfold components at h
    split at h
    · simpa using h
    · split at h <;> simpa using h
  obtain ⟨piece, hpiece, hname⟩ := hpieces
  unfold Component.ofPiece? at hname
  split at hname
  · cases hname
  · rename_i hidle
    split at hname
    · cases hname
    · rename_i hup
      cases hname
      rw [Bool.or_eq_true, beq_iff_eq, beq_iff_eq, not_or] at hidle
      exact ⟨hidle.1, hidle.2, by simpa using hup, not_mem_of_mem_splitAt hpiece⟩

/-- No name is spelled like another component. -/
theorem IsName.eq_name {s : String} (h : IsName s) {c : Component} (heq : c.text = s) : c = .name s := by
  cases c with
  | root => exact absurd (heq ▸ List.mem_singleton_self '/') h.noSlash
  | here => exact absurd heq.symm h.notHere
  | up => exact absurd heq.symm h.notUp
  | name t => exact congrArg Component.name heq

theorem eq_of_text_eq {p q : Path} {c d : Component} (hc : c ∈ p.components) (hd : d ∈ q.components)
    (h : c.text = d.text) : c = d := by
  cases c with
  | name s => exact ((isName_of_mem_components hc).eq_name h.symm).symm
  | _ =>
    cases d with
    | name t => exact (isName_of_mem_components hd).eq_name h
    | _ => first | rfl | exact absurd h (by decide)

theorem components_eq_of_texts_eq {p q : Path}
    (h : p.components.map Component.text = q.components.map Component.text) : p.components = q.components := by
  refine List.ext_getElem (by simpa using congrArg List.length h) fun i hp hq => ?_
  have hi := congrArg (·[i]?) h
  simp only [List.getElem?_map, List.getElem?_eq_getElem hp, List.getElem?_eq_getElem hq, Option.map_some,
    Option.some.injEq] at hi
  exact eq_of_text_eq (List.getElem_mem hp) (List.getElem_mem hq) hi

end PromptPack.Path
