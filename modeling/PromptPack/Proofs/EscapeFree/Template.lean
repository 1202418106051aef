import PromptPack.Proofs.EscapeFree.Text
import PromptPack.Proofs.Yields
import PromptPack.Template.Render
/-!
# Templates without escapes

A template whose texts and literals are free of escapes, rendered with data that is free of them, writes a text that
is: what helpers compute, blocks name and parts define comes from the one or from the other.
-/

namespace PromptPack

/-! ## Numbers -/

namespace Json

theorem escapeFree_zeros (n : Nat) : EscapeFree (Decimal.zeros n) := by
  rw [Decimal.zeros, escapeFree_ofList, List.mem_replicate]
  exact fun h => absurd h.2 (by decide)

theorem escapeMark_not_mem_significant (d : Decimal.Numeral) : escapeMark ∉ (significant d).1 := by
  intro h
  refine escapeFree_toString d.digits ?_
  simp only [significant, List.mem_reverse] at h
  simpa using (List.dropWhile_sublist _).subset h

theorem escapeFree_numeralText (d : Decimal.Numeral) : EscapeFree (numeralText d) := by
  have hdigits := escapeMark_not_mem_significant d
  have htake (n : Nat) : escapeMark ∉ (significant d).1.take n := fun h => hdigits (List.mem_of_mem_take h)
  have hdrop (n : Nat) : escapeMark ∉ (significant d).1.drop n := fun h => hdigits (List.mem_of_mem_drop h)
  have hpoint : EscapeFree "." := escapeFree_literal rfl
  have hfraction : EscapeFree ".0" := escapeFree_literal rfl
  have hzero : EscapeFree "0." := escapeFree_literal rfl
  have hexponent : EscapeFree "e" := escapeFree_literal rfl
  unfold numeralText
  dsimp only
  split_ifs <;>
    simp only [escapeFree_append, escapeFree_ofList, escapeFree_empty, hdigits, htake, hdrop, hpoint, hfraction, hzero,
      hexponent, escapeFree_zeros, escapeFree_toString_int, not_false_eq_true, and_self]

theorem escapeFree_numberText (x : Float) : EscapeFree (numberText x) := by
  unfold numberText
  split
  · split <;> exact escapeFree_literal rfl
  · refine EscapeFree.append ?_ (escapeFree_numeralText _)
    split <;> exact escapeFree_literal rfl
  · exact escapeFree_literal rfl

end Json

/-! ## Data -/

/-- All texts and all names of fields are free of escapes. -/
inductive Data.Plain : Data → Prop
  | null : Plain .null
  | bool (b : Bool) : Plain (.bool b)
  | int (n : Int) : Plain (.int n)
  | real (x : Float) : Plain (.real x)
  | text {s : String} (h : EscapeFree s) : Plain (.text s)
  | list {items : List Data} (h : ∀ d ∈ items, Plain d) : Plain (.list items)
  | record {fields : List (String × Data)} (names : ∀ f ∈ fields, EscapeFree f.1) (values : ∀ f ∈ fields, Plain f.2) :
    Plain (.record fields)

namespace Data.Plain

variable {d : Data} {items : List Data} {fields : List (String × Data)} {key : String}

theorem of_text {s : String} (h : (Data.text s).Plain) : EscapeFree s := by
  cases h with
  | text h => exact h

theorem of_list (h : (Data.list items).Plain) : ∀ d ∈ items, d.Plain := by
  cases h with
  | list h => exact h

theorem of_record (h : (Data.record fields).Plain) : ∀ f ∈ fields, EscapeFree f.1 ∧ f.2.Plain := by
  cases h with
  | record names values => exact fun f hf => ⟨names f hf, values f hf⟩

theorem ofFields (h : ∀ f ∈ fields, EscapeFree f.1 ∧ f.2.Plain) : (Data.record fields).Plain :=
  .record (fun f hf => (h f hf).1) fun f hf => (h f hf).2

theorem getD {d? : Option Data} (h : ∀ d ∈ d?, d.Plain) : (d?.getD .null).Plain := by
  cases d? with
  | none => exact .null
  | some d => exact h d rfl

theorem get? (h : d.Plain) : ∀ d' ∈ d.get? key, d'.Plain := by
  intro d' hd'
  cases d with
  | record fields =>
    obtain ⟨f, hf, rfl⟩ := Option.map_eq_some_iff.1 hd'
    exact (h.of_record f (List.mem_reverse.1 (List.mem_of_find?_eq_some hf))).2
  | _ => cases hd'

theorem insertField (hkey : EscapeFree key) (hd : d.Plain) (h : ∀ f ∈ fields, EscapeFree f.1 ∧ f.2.Plain) :
    ∀ f ∈ Data.insertField key d fields, EscapeFree f.1 ∧ f.2.Plain := by
  induction fields with
  | nil => simpa [Data.insertField] using ⟨hkey, hd⟩
  | cons first fields ih =>
    obtain ⟨k, e⟩ := first
    rw [List.forall_mem_cons] at h
    unfold Data.insertField
    split
    · exact List.forall_mem_cons.2 ⟨⟨hkey, hd⟩, h.2⟩
    · split
      · exact List.forall_mem_cons.2 ⟨⟨hkey, hd⟩, List.forall_mem_cons.2 h⟩
      · exact List.forall_mem_cons.2 ⟨h.1, ih h.2⟩

end Data.Plain

namespace Template

/-! ## Values -/

mutual

theorem escapeFree_shown (d : Data) (h : d.Plain) : EscapeFree (shown d) := by
  match d, h with
  | .null, _ => exact escapeFree_empty
  | .bool b, _ => cases b <;> exact escapeFree_literal rfl
  | .int n, _ => exact escapeFree_toString_int n
  | .real x, _ => exact Json.escapeFree_numberText x
  | .text s, h => exact h.of_text
  | .list items, h =>
    have hopen : EscapeFree "[" := escapeFree_literal rfl
    have hclose : EscapeFree "]" := escapeFree_literal rfl
    have hcomma : EscapeFree ", " := escapeFree_literal rfl
    exact (hopen.append (escapeFree_intercalate hcomma (escapeFree_shownAll items h.of_list))).append hclose
  | .record fields, _ => show EscapeFree "[object]"; exact escapeFree_literal rfl

theorem escapeFree_shownAll (items : List Data) (h : ∀ d ∈ items, d.Plain) :
    ∀ s ∈ shown.shownAll items, EscapeFree s := by
  match items with
  | [] => simp [shown.shownAll]
  | d :: ds =>
    rw [List.forall_mem_cons] at h
    rw [shown.shownAll]
    exact List.forall_mem_cons.2 ⟨escapeFree_shown d h.1, escapeFree_shownAll ds h.2⟩

end

theorem plain_compareBy (test : Ordering → Bool) (args : List Data) (name : String) :
    Yields (compareBy test args name) Data.Plain := by
  unfold compareBy
  split
  · exact yields_ok.2 (.bool _)
  · exact yields_error

theorem plain_helperValue (name : String) {args : List Data} (h : ∀ d ∈ args, d.Plain) :
    Yields (helperValue name args) Data.Plain := by
  have hempty : (Data.text "").Plain := .text escapeFree_empty
  unfold helperValue
  split
  -- A looked up value comes from an argument.
  · rename_i items n rest
    have hitems := (h _ List.mem_cons_self).of_list
    refine yields_ok.2 (Data.Plain.getD fun d hd => ?_)
    split at hd
    · cases hd
    · exact hitems d (List.mem_of_getElem? hd)
  · exact yields_ok.2 (Data.Plain.getD (h _ List.mem_cons_self).get?)
  · exact yields_ok.2 .null
  -- Comparisons and connectives.
  · exact yields_ok.2 (.bool _)
  · exact yields_ok.2 (.bool _)
  · exact plain_compareBy _ _ _
  · exact plain_compareBy _ _ _
  · exact plain_compareBy _ _ _
  · exact plain_compareBy _ _ _
  · exact yields_ok.2 (.bool _)
  · exact yields_ok.2 (.bool _)
  · exact yields_ok.2 (.bool _)
  -- Lengths.
  · exact yields_ok.2 (.int _)
  · exact yields_ok.2 (.int _)
  · exact yields_ok.2 (.int _)
  · exact yields_ok.2 (.int _)
  -- What writes nothing where a value is asked for.
  · exact yields_ok.2 hempty
  · exact yields_ok.2 hempty
  · exact yields_ok.2 hempty
  · exact yields_ok.2 hempty
  · exact yields_ok.2 hempty
  · exact yields_ok.2 hempty
  · exact yields_error

/-! ## Expressions -/

/-- All literals of the expression are plain, and so are the names of its arguments. -/
inductive Expr.Plain : Expr → Prop
  | ref (r : Reference) : Plain (.ref r)
  | lit {d : Data} (h : d.Plain) : Plain (.lit d)
  | call {helper : String} {args : List Expr} {named : List (String × Expr)} (args_plain : ∀ e ∈ args, Plain e)
    (names : ∀ x ∈ named, EscapeFree x.1) (values : ∀ x ∈ named, Plain x.2) : Plain (.call helper args named)

/-- What the call is given is plain. -/
structure Call.Plain (c : Call) : Prop where
  args : ∀ e ∈ c.args, e.Plain
  names : ∀ x ∈ c.named, EscapeFree x.1
  values : ∀ x ∈ c.named, x.2.Plain

/-- The texts and the literals of the node, and of the nodes in it, are free of escapes. -/
inductive Node.Plain : Node → Prop
  | text {s : String} (h : EscapeFree s) : Plain (.text s)
  | value (r : Reference) {c : Call} (call : c.Plain) : Plain (.value r c)
  | computed {e : Expr} (h : e.Plain) : Plain (.computed e)
  | block {c : Call} {body inverse : List Node} (hasInverse : Bool) (call : c.Plain) (body_plain : ∀ n ∈ body, Plain n)
    (inverse_plain : ∀ n ∈ inverse, Plain n) : Plain (.block c body inverse hasInverse)
  | insertion {part : Expr} {c : Call} {indent : String} {body : List Node} (encloses : Bool) (part_plain : part.Plain)
    (call : c.Plain) (indent_free : EscapeFree indent) (body_plain : ∀ n ∈ body, Plain n) :
    Plain (.insertion part c indent encloses body)
  | definition {c : Call} {body : List Node} (call : c.Plain) (body_plain : ∀ n ∈ body, Plain n) :
    Plain (.definition c body)
  | decoration (c : Call) : Plain (.decoration c)

/-! ## Scopes -/

/-- The values that a block brings along are plain. -/
structure Frame.Plain (f : Frame) : Prop where
  value : f.value.Plain
  locals : ∀ x ∈ f.locals, x.2.Plain
  names : ∀ x ∈ f.names, x.2.Plain

structure Scope.Plain (s : Scope) : Prop where
  root : s.root.Plain
  frames : ∀ f ∈ s.frames, f.Plain
  enclosed : ∀ ns ∈ s.enclosed, ∀ n ∈ ns, n.Plain

variable {s : Scope} {d : Data}

theorem plain_stepInto {d? : Option Data} (h : ∀ d ∈ d?, d.Plain) (key : String) :
    Yields (stepInto d? key) fun d? => ∀ d ∈ d?, d.Plain := by
  unfold stepInto
  split
  · rename_i items
    split
    · exact yields_ok.2 fun d hd => (h _ rfl).of_list d (List.mem_of_getElem? hd)
    · exact yields_error
  · rename_i d _
    exact yields_ok.2 (h d rfl).get?
  · exact yields_ok.2 (by simp)

theorem plain_below? (h : d.Plain) (steps : List Step) : Yields (below? d steps) fun d? => ∀ d ∈ d?, d.Plain :=
  yields_foldlM (by simpa using h) fun _ key _ hd => plain_stepInto hd key

namespace Scope.Plain

theorem given? (h : s.Plain) (name : String) : ∀ d ∈ s.given? name, d.Plain := by
  intro d hd
  obtain ⟨f, hf, hd⟩ := List.exists_of_findSome?_eq_some hd
  obtain ⟨x, hx, rfl⟩ := Option.map_eq_some_iff.1 hd
  exact (h.frames f hf).names x (List.mem_of_find?_eq_some hx)

theorem localValue? (h : s.Plain) (up : Nat) (name : String) : ∀ d ∈ s.localValue? up name, d.Plain := by
  intro d hd
  obtain ⟨f, hf, hd⟩ := List.exists_of_findSome?_eq_some hd
  obtain ⟨x, hx, rfl⟩ := Option.map_eq_some_iff.1 hd
  exact (h.frames f (List.mem_of_mem_drop hf)).locals x (List.mem_of_find?_eq_some hx)

theorem lookup (h : s.Plain) (r : Reference) : Yields (s.lookup r) fun d? => ∀ d ∈ d?, d.Plain := by
  unfold Scope.lookup
  dsimp only
  -- Where no name of a block counts, the value is one of a frame or of the whole context.
  have hframe : ∀ f ∈ (s.frames[(r.steps.takeWhile isUp).length]?).or s.frames.head?, f.Plain := by
    rintro f hf
    rcases Option.or_eq_some_iff.1 hf with hf | ⟨-, hf⟩
    · exact h.frames f (List.mem_of_getElem? hf)
    · exact h.frames f (List.mem_of_head? hf)
  generalize (s.frames[(r.steps.takeWhile isUp).length]?).or s.frames.head? = frame? at hframe ⊢
  split
  · split
    · exact yields_ok.2 (h.localValue? _ _)
    · exact yields_ok.2 (by simp)
  · split
    · exact plain_below? h.root _
    · split
      · rename_i d hd
        exact plain_below? (h.given? _ d hd) _
      · cases frame? with
        | none => exact plain_below? h.root _
        | some f => exact plain_below? (hframe f rfl).value _
    · cases frame? with
      | none => exact plain_below? h.root _
      | some f => exact plain_below? (hframe f rfl).value _

end Scope.Plain

mutual

theorem plain_eval (hs : s.Plain) (e : Expr) (he : e.Plain) : Yields (s.eval e) Data.Plain := by
  match e, he with
  | .ref r, _ => exact (hs.lookup r).map fun d? => Data.Plain.getD
  | .lit d, .lit h => exact yields_ok.2 h
  | .call helper args named, .call hargs _ hvalues =>
    rw [Scope.eval]
    refine (plain_evalAll hs args hargs).bind fun values hvalues => ?_
    refine Yields.bind (P := fun _ => True) (fun _ _ => trivial) fun _ _ => ?_
    exact plain_helperValue helper hvalues

theorem plain_evalAll (hs : s.Plain) (es : List Expr) (hes : ∀ e ∈ es, e.Plain) :
    Yields (s.evalAll es) fun ds => ∀ d ∈ ds, d.Plain := by
  match es with
  | [] => exact yields_ok.2 (by simp)
  | e :: es =>
    rw [List.forall_mem_cons] at hes
    rw [Scope.evalAll]
    refine (plain_eval hs e hes.1).bind fun d hd => (plain_evalAll hs es hes.2).bind fun ds hds => ?_
    exact yields_pure.2 (List.forall_mem_cons.2 ⟨hd, hds⟩)

end

theorem plain_evalNamed (hs : s.Plain) (named : List (String × Expr)) (hnames : ∀ x ∈ named, EscapeFree x.1)
    (hvalues : ∀ x ∈ named, x.2.Plain) : Yields (s.evalNamed named) fun ds => ∀ x ∈ ds, EscapeFree x.1 ∧ x.2.Plain := by
  induction named with
  | nil => exact yields_ok.2 (by simp)
  | cons x named ih =>
    obtain ⟨k, e⟩ := x
    rw [List.forall_mem_cons] at hnames hvalues
    rw [Scope.evalNamed]
    refine (plain_eval hs e hvalues.1).bind fun d hd => (ih hnames.2 hvalues.2).bind fun ds hds => ?_
    exact yields_pure.2 (List.forall_mem_cons.2 ⟨⟨hnames.1, hd⟩, hds⟩)

/-! ## Frames -/

theorem plain_itemFrame {names : List String} {locals : List (String × Data)} {key value : Data}
    (hlocals : ∀ x ∈ locals, x.2.Plain) (hkey : key.Plain) (hvalue : value.Plain) :
    (itemFrame names locals key value).Plain := by
  refine ⟨hvalue, hlocals, fun x hx => ?_⟩
  unfold itemFrame at hx
  dsimp only at hx
  split at hx
  · obtain rfl := List.mem_singleton.1 hx
    exact hvalue
  · rw [List.mem_cons, List.mem_singleton] at hx
    rcases hx with rfl | rfl
    · exact hvalue
    · exact hkey
  · cases hx

theorem plain_itemLocals {i total : Nat} {keyName : String} {key : Data} (hkey : key.Plain) :
    ∀ x ∈ itemLocals i total keyName key, x.2.Plain := by
  simpa [itemLocals] using ⟨.bool _, .bool _, hkey⟩

theorem plain_of_mem_itemFrames {names : List String} (h : d.Plain) : ∀ f ∈ itemFrames names d, f.Plain := by
  intro f hf
  unfold itemFrames at hf
  split at hf
  · obtain ⟨⟨v, i⟩, hv, rfl⟩ := List.mem_map.1 hf
    have hkey : (Data.int i).Plain := .int _
    exact plain_itemFrame (plain_itemLocals hkey) hkey (h.of_list v (List.fst_mem_of_mem_zipIdx hv))
  · obtain ⟨⟨⟨k, v⟩, i⟩, hv, rfl⟩ := List.mem_map.1 hf
    obtain ⟨hname, hvalue⟩ := h.of_record _ (List.fst_mem_of_mem_zipIdx hv)
    have hkey : (Data.text k).Plain := .text hname
    exact plain_itemFrame (plain_itemLocals hkey) hkey hvalue
  · cases hf

theorem Scope.Plain.within (h : s.Plain) {f : Frame} (hf : f.Plain) : (s.within f).Plain :=
  ⟨h.root, List.forall_mem_cons.2 ⟨hf, h.frames⟩, h.enclosed⟩

theorem plain_withFields {fields : List (String × Data)} (hd : d.Plain)
    (hfields : ∀ x ∈ fields, EscapeFree x.1 ∧ x.2.Plain) : (withFields d fields).Plain := by
  have hold (old : List (String × Data)) (h : ∀ x ∈ old, EscapeFree x.1 ∧ x.2.Plain) :
      ∀ x ∈ fields.foldl (fun old y => Data.insertField y.1 y.2 old) old, EscapeFree x.1 ∧ x.2.Plain := by
    induction fields generalizing old with
    | nil => exact h
    | cons x fields ih =>
      rw [List.forall_mem_cons] at hfields
      exact ih hfields.2 _ (Data.Plain.insertField hfields.1.1 hfields.1.2 h)
  refine Data.Plain.ofFields (hold _ ?_)
  split
  · exact hd.of_record
  · simp

theorem Scope.Plain.forPart (h : s.Plain) {values : List Data} {named : List (String × Data)}
    (hvalues : ∀ d ∈ values, d.Plain) (hnamed : ∀ x ∈ named, EscapeFree x.1 ∧ x.2.Plain) :
    (s.forPart values named).Plain := by
  have hhere : (s.frames.head?.getD { value := s.root }).Plain := by
    cases hhead : s.frames.head? with
    | none => exact ⟨h.root, by simp, by simp⟩
    | some f => exact h.frames f (List.mem_of_head? hhead)
  have honly {f : Frame} (hf : f.Plain) : ({ s with frames := [f] } : Scope).Plain :=
    ⟨h.root, by simpa using hf, h.enclosed⟩
  have hwith {f : Frame} (hf : f.Plain) : ({ f with value := withFields f.value named } : Frame).Plain :=
    ⟨plain_withFields hf.value hnamed, hf.locals, hf.names⟩
  unfold Scope.forPart
  cases values with
  | nil =>
    dsimp only
    split
    · exact h
    · exact honly (hwith hhere)
  | cons v values =>
    have hv : Frame.Plain { value := v } := ⟨hvalues v List.mem_cons_self, by simp, by simp⟩
    dsimp only
    split
    · exact honly hv
    · exact honly (hwith hv)

/-! ## Parts -/

/-- The parts defined so far are plain. -/
def Progress.Plain (p : Progress) : Prop := ∀ x ∈ p.parts, ∀ n ∈ x.2, n.Plain

theorem Progress.Plain.inBlock {p : Progress} (h : p.Plain) : p.inBlock.Plain := h

/-- What is written is free of escapes, and what follows is rendered with plain parts. -/
def Written.Plain (w : Written) : Prop := Yields w fun r => EscapeFree r.1 ∧ r.2.Plain

variable {own : String × List Node} {p : Progress} {insert : Inserter}

theorem plain_of_part? (hs : s.Plain) (hown : ∀ n ∈ own.2, n.Plain) (hp : p.Plain) {name : String}
    {fallback : Option (List Node)} (hfallback : ∀ ns ∈ fallback, ∀ n ∈ ns, n.Plain) :
    ∀ ns ∈ s.part? own p.parts name fallback, ∀ n ∈ ns, n.Plain := by
  intro ns hns
  unfold Scope.part? at hns
  dsimp only at hns
  rcases Option.or_eq_some_iff.1 hns with hns | ⟨-, hns⟩
  · split at hns
    · exact hs.enclosed ns (List.mem_of_getElem? hns)
    · obtain ⟨x, hx, rfl⟩ := Option.map_eq_some_iff.1 hns
      exact hp x (List.mem_of_find?_eq_some hx)
  · rcases Option.or_eq_some_iff.1 hns with hns | ⟨-, hns⟩
    · split at hns
      · obtain rfl := Option.some.inj hns
        exact hown
      · cases hns
    · exact hfallback ns hns

theorem plain_defineOne (hs : s.Plain) (hp : p.Plain) {call : Call} {body : List Node} (hcall : call.Plain)
    (hbody : ∀ n ∈ body, n.Plain) : Yields (defineOne s p call body) Progress.Plain := by
  unfold defineOne
  split
  · exact yields_error
  · refine (plain_evalAll hs call.args hcall.args).bind fun ds _ => ?_
    split
    · exact yields_pure.2 (List.forall_mem_cons.2 ⟨hbody, hp⟩)
    · exact yields_error

theorem plain_define (hs : s.Plain) (hp : p.Plain) {ns : List Node} (hns : ∀ n ∈ ns, n.Plain) :
    Yields (define s p ns) Progress.Plain := by
  induction ns generalizing p with
  | nil => exact yields_ok.2 hp
  | cons n ns ih =>
    rw [List.forall_mem_cons] at hns
    obtain ⟨hn, hns⟩ := hns
    cases n with
    | definition call body =>
      cases hn with
      | definition hcall hbody => exact (plain_defineOne hs hp hcall hbody).bind fun p' hp' => ih hp' hns
    | decoration call => exact yields_error
    | _ => exact ih hp hns

/-! ## Nodes -/

theorem escapeFree_indented {indent text : String} (hindent : EscapeFree indent) (htext : EscapeFree text) :
    EscapeFree (indented indent text) := by
  have hgo (cs : List Char) (h : escapeMark ∉ cs) : escapeMark ∉ indented.go indent cs := by
    induction cs with
    | nil => simp [indented.go]
    | cons c cs ih =>
      rw [List.mem_cons, not_or] at h
      rw [indented.go]
      split
      · simpa [not_or] using ⟨h.1, hindent, ih h.2⟩
      · simpa [not_or] using ⟨h.1, ih h.2⟩
  exact escapeFree_ofList.2 (hgo _ htext)

theorem plain_forEach {write : Frame → Progress → Written} {frames : List Frame} (hp : p.Plain)
    (h : ∀ f ∈ frames, ∀ p : Progress, p.Plain → (write f p).Plain) : (forEach write frames p).Plain := by
  induction frames generalizing p with
  | nil => exact yields_ok.2 ⟨escapeFree_empty, hp⟩
  | cons f frames ih =>
    rw [List.forall_mem_cons] at h
    refine (h.1 p hp).bind fun r hr => (ih hr.2 h.2).bind fun r' hr' => ?_
    exact yields_pure.2 ⟨hr.1.append hr'.1, hr'.2⟩

/-- In plain scopes the inserter writes plain nodes without escapes. -/
def Inserter.Plain (insert : Inserter) : Prop :=
  ∀ (s : Scope) (p : Progress) (ns : List Node), s.Plain → p.Plain → (∀ n ∈ ns, n.Plain) → (insert s p ns).Plain

/-- A block whose branches write plainly writes plainly: whatever it adds to the scope comes from the context. -/
theorem plain_renderBlock {call : Call} {body inverse : List Node} {hasInverse : Bool} (hs : s.Plain) (hp : p.Plain)
    (hcall : call.Plain)
    (hbody : ∀ (s : Scope) (p : Progress), s.Plain → p.Plain → (renderNodes own insert s p body).Plain)
    (hinverse : ∀ (s : Scope) (p : Progress), s.Plain → p.Plain → (renderNodes own insert s p inverse).Plain) :
    (renderNode own insert s p (.block call body inverse hasInverse)).Plain := by
  have hblock := hp.inBlock
  have hbranch (yes : Bool) : Written.Plain
      (if yes then renderNodes own insert s p.inBlock body else renderNodes own insert s p.inBlock inverse) := by
    split
    · exact hbody s p.inBlock hs hblock
    · exact hinverse s p.inBlock hs hblock
  rw [renderNode]
  refine (plain_evalAll hs _ hcall.args).bind fun values hvalues => ?_
  refine (plain_evalNamed hs _ hcall.names hcall.values).bind fun named _ => ?_
  dsimp only
  split
  · exact hbranch _
  · exact hbranch _
  · -- The parts that the items define are dropped behind the block.
    have hd := hvalues _ List.mem_cons_self
    split
    · refine Yields.bind (plain_forEach hp fun f hf p' hp' => ?_) fun r hr => yields_pure.2 ⟨hr.1, hp⟩
      exact hbody _ _ (hs.within (plain_of_mem_itemFrames hd f hf)) hp'.inBlock
    · exact hbranch _
  · have hd := hvalues _ List.mem_cons_self
    split
    · refine Yields.bind (hbody _ _ (hs.within ?_) hblock) fun r hr => yields_pure.2 ⟨hr.1, hp⟩
      exact plain_itemFrame (by simp) .null hd
    · exact hbranch _
  · exact hbranch _
  · refine (plain_helperValue _ hvalues).bind fun d hd => ?_
    split
    · exact hbranch _
    · exact yields_pure.2 ⟨escapeFree_shown d hd, hp⟩

/-- An inserted part is plain whichever it is: the enclosed body, one defined before, or the template itself. -/
theorem plain_renderInsertion {part : Expr} {call : Call} {indent : String} {encloses : Bool} {body : List Node}
    (hown : ∀ n ∈ own.2, n.Plain) (hinsert : insert.Plain) (hs : s.Plain) (hp : p.Plain) (hpart : part.Plain)
    (hcall : call.Plain) (hindent : EscapeFree indent) (hbody : ∀ n ∈ body, n.Plain) :
    (renderNode own insert s p (.insertion part call indent encloses body)).Plain := by
  rw [renderNode]
  refine Yields.ite_bind (fun _ => plain_define hs hp hbody) (fun _ => yields_ok.2 hp) fun p' hp' => ?_
  refine (plain_eval hs part hpart).bind fun d _ => ?_
  refine (plain_evalAll hs _ hcall.args).bind fun values hvalues => ?_
  refine (plain_evalNamed hs _ hcall.names hcall.values).bind fun named hnamed => ?_
  dsimp only
  split
  · exact yields_error
  · split
    · exact yields_error
    · rename_i nodes hnodes
      have hplain := plain_of_part? hs hown hp' (by split <;> simp_all) nodes hnodes
      have hinner := hs.forPart hvalues hnamed
      have henclosed : ∀ ns ∈ (if encloses then body :: s.enclosed else s.enclosed), ∀ n ∈ ns, n.Plain := by
        split
        · exact List.forall_mem_cons.2 ⟨hbody, hs.enclosed⟩
        · exact hs.enclosed
      refine Yields.bind (hinsert _ _ nodes ⟨hinner.root, hinner.frames, henclosed⟩ hp' hplain) fun r hr => ?_
      refine yields_pure.2 ⟨?_, hp'⟩
      dsimp only
      split
      · exact hr.1
      · exact escapeFree_indented hindent hr.1

mutual

theorem plain_renderNode {s : Scope} {p : Progress} (hown : ∀ n ∈ own.2, n.Plain) (hinsert : insert.Plain) (hs : s.Plain)
    (hp : p.Plain) (n : Node) (hn : n.Plain) : (renderNode own insert s p n).Plain := by
  match n, hn with
  | .text t, .text h =>
    rw [renderNode]
    exact yields_ok.2 ⟨h, hp⟩
  | .value r call, .value _ hcall =>
    rw [renderNode]
    split
    · exact (hs.lookup r).bind fun d? hd => yields_pure.2 ⟨escapeFree_shown _ (Data.Plain.getD hd), hp⟩
    · refine (plain_evalAll hs _ hcall.args).bind fun values hvalues => ?_
      refine (plain_evalNamed hs _ hcall.names hcall.values).bind fun _ _ => ?_
      exact (plain_helperValue _ hvalues).bind fun d hd => yields_pure.2 ⟨escapeFree_shown d hd, hp⟩
  | .computed e, .computed he =>
    rw [renderNode]
    refine (plain_eval hs e he).bind fun d hd => ?_
    refine Yields.ite_bind (fun _ => plain_helperValue _ (by simp)) (fun _ => yields_ok.2 hd) fun d' hd' => ?_
    exact yields_pure.2 ⟨escapeFree_shown d' hd', hp⟩
  | .block call body inverse hasInverse, .block _ hcall hbody hinverse =>
    refine plain_renderBlock hs hp hcall ?_ ?_
    · exact fun s p hs hp => plain_renderNodes hown hinsert hs hp body hbody
    · exact fun s p hs hp => plain_renderNodes hown hinsert hs hp inverse hinverse
  | .insertion part call indent encloses body, .insertion _ hpart hcall hindent hbody =>
    exact plain_renderInsertion hown hinsert hs hp hpart hcall hindent hbody
  | .definition call body, .definition hcall hbody =>
    rw [renderNode]
    exact (plain_defineOne hs hp hcall hbody).map fun p' hp' => ⟨escapeFree_empty, hp'⟩
  | .decoration call, _ =>
    rw [renderNode]
    exact yields_error

theorem plain_renderNodes {s : Scope} {p : Progress} (hown : ∀ n ∈ own.2, n.Plain) (hinsert : insert.Plain) (hs : s.Plain)
    (hp : p.Plain) (ns : List Node) (hns : ∀ n ∈ ns, n.Plain) : (renderNodes own insert s p ns).Plain := by
  match ns with
  | [] =>
    rw [renderNodes]
    exact yields_ok.2 ⟨escapeFree_empty, hp⟩
  | n :: ns =>
    rw [List.forall_mem_cons] at hns
    rw [renderNodes]
    refine (plain_renderNode hown hinsert hs hp n hns.1).bind fun r hr => ?_
    refine (plain_renderNodes hown hinsert hs hr.2 ns hns.2).bind fun r' hr' => ?_
    exact yields_pure.2 ⟨hr.1.append hr'.1, hr'.2⟩

end

theorem plain_renderWithin (hown : ∀ n ∈ own.2, n.Plain) (depth : Nat) : (renderWithin own depth).Plain := by
  induction depth with
  | zero => exact fun _ _ _ _ _ _ => yields_error
  | succ depth ih => exact fun s p ns hs hp hns => plain_renderNodes hown ih hs hp ns hns

/-- A plain template writes a text without escapes for plain data. -/
theorem escapeFree_render {name : String} {nodes : List Node} (hnodes : ∀ n ∈ nodes, n.Plain) (hd : d.Plain) :
    Yields (render name nodes d) EscapeFree := by
  have hscope : Scope.Plain { root := d, frames := [{ value := d }] } :=
    ⟨hd, by simpa using ⟨hd, by simp, by simp⟩, by simp⟩
  have hwithin : (renderWithin (name, nodes) (maxDepth + 1)).Plain := plain_renderWithin hnodes _
  exact (hwithin _ { template := some name } nodes hscope (by simp [Progress.Plain]) hnodes).map fun r hr => hr.1

end Template

end PromptPack
