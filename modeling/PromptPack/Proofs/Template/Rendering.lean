import Mathlib
import PromptPack.Template.Render
/-!
# What simple nodes write

A node that reads fields only writes the same text whatever has been rendered before it (`Node.Writes`): a field writes
its text (`writes_field`), a condition what it encloses or nothing (`writes_if`), and a loop what it encloses for one
item after the other (`writes_each`).
-/

namespace PromptPack.Template

/-! ## Fields in scope -/

/-- A reference to a field of what is around a tag. -/
def fieldReference (name : String) : Reference := ⟨false, [.name name]⟩

/-- The field has the value in the scope. -/
def Scope.Sees (s : Scope) (name : String) (d : Data) : Prop := s.lookup (fieldReference name) = .ok (some d)

variable {s : Scope} {f : Frame} {fs : List Frame} {name : String} {d : Data}

theorem Scope.given?_eq_none (h : ∀ f ∈ s.frames, f.names = []) (name : String) : s.given? name = none := by
  rw [given?, List.findSome?_eq_none_iff]
  intro f hf
  simp [h f hf]

/-- A field of the innermost record is seen where no block gives a name. -/
theorem Scope.sees_of_record (hframes : s.frames = f :: fs) (hnames : ∀ f ∈ s.frames, f.names = [])
    {fields : List (String × Data)} (hrecord : f.value = .record fields) (hget : f.value.get? name = some d) :
    s.Sees name d := by
  have hgiven := given?_eq_none hnames name
  have hups : ([Step.name name].takeWhile isUp) = [] := rfl
  rw [Sees, fieldReference, lookup, hups]
  simp only [List.length_nil, List.drop_zero, hgiven, hframes, Bool.false_eq_true, if_false]
  rw [hrecord] at hget
  simp [below?, stepNames, stepInto, hrecord, hget]

/-! ## Nodes -/

/-- The node writes the text in the scope, whatever has been rendered before it. -/
def Node.Writes (s : Scope) (n : Node) (text : String) : Prop :=
  ∀ own insert p, ∃ after, renderNode own insert s p n = .ok (text, after)

/-- The nodes write the text together. -/
def NodesWrite (s : Scope) (ns : List Node) (text : String) : Prop :=
  ∀ own insert p, ∃ after, renderNodes own insert s p ns = .ok (text, after)

variable {n : Node} {ns body : List Node} {text more : String}

theorem nodesWrite_nil : NodesWrite s [] "" := fun own insert p => ⟨p, by rw [renderNodes]⟩

theorem NodesWrite.cons (hn : n.Writes s text) (hns : NodesWrite s ns more) : NodesWrite s (n :: ns) (text ++ more) := by
  intro own insert p
  obtain ⟨p₁, h₁⟩ := hn own insert p
  obtain ⟨p₂, h₂⟩ := hns own insert p₁
  exact ⟨p₂, by rw [renderNodes, h₁]; simp [h₂, bind, Except.bind, pure, Except.pure]⟩

theorem writes_text (t : String) : (Node.text t).Writes s t := fun own insert p => ⟨p, by rw [renderNode]⟩

/-- The tag that inserts a field. -/
def fieldNode (name : String) : Node := .value (fieldReference name) ⟨name, [], [], []⟩

theorem writes_field (hname : name ∉ helperNames) (h : s.Sees name d) : (fieldNode name).Writes s (shown d) := by
  intro own insert p
  refine ⟨p, ?_⟩
  rw [fieldNode, renderNode, h]
  simp [hname, bind, Except.bind, pure, Except.pure]

/-- A block about a field without another branch. -/
def blockNode (helper name : String) (body : List Node) : Node :=
  .block ⟨helper, [.ref (fieldReference name)], [], []⟩ body [] false

theorem evalAll_field (h : s.Sees name d) : s.evalAll [.ref (fieldReference name)] = .ok [d] := by
  rw [Scope.evalAll, Scope.eval, h, Scope.evalAll]
  rfl

/-- A condition writes what it encloses or nothing. -/
theorem writes_if (h : s.Sees name d) (hbody : truthy false d = true → NodesWrite s body text) :
    (blockNode "if" name body).Writes s (if truthy false d then text else "") := by
  intro own insert p
  have hevaluated := evalAll_field h
  rw [blockNode, renderNode, hevaluated]
  cases htrue : truthy false d with
  | true =>
    obtain ⟨after, hafter⟩ := hbody htrue own insert p.inBlock
    exact ⟨after, by simpa [Scope.evalNamed, includesZero, htrue, bind, Except.bind] using hafter⟩
  | false => exact ⟨p.inBlock, by simp [Scope.evalNamed, includesZero, htrue, renderNodes, bind, Except.bind]⟩

/-- A condition on a text holds where the text is not empty. -/
theorem writes_if_text {value : String} (h : s.Sees name (.text value)) (hbody : NodesWrite s body text) :
    (blockNode "if" name body).Writes s (if value.isEmpty then "" else text) := by
  have hif := writes_if h fun _ => hbody
  cases hempty : value.isEmpty <;> simpa [truthy, hempty] using hif

/-! ## Loops -/

theorem forEach_writes {write : Frame → Progress → Written} {frames : List Frame} {texts : List String}
    (h : List.Forall₂ (fun f text => ∀ p, ∃ after, write f p = .ok (text, after)) frames texts) (p : Progress) :
    ∃ after, forEach write frames p = .ok (String.join texts, after) := by
  induction h generalizing p with
  | nil => exact ⟨p, rfl⟩
  | cons hf _ ih =>
    obtain ⟨p₁, h₁⟩ := hf p
    obtain ⟨p₂, h₂⟩ := ih p₁
    exact ⟨p₂, by simp [forEach, h₁, h₂, bind, Except.bind, pure, Except.pure]⟩

/-- The frames for the items of a list hold one item after the other and give no names. -/
theorem forall₂_itemFrames {α β : Type} {items : List α} {toData : α → Data} {image : α → β} {r : Frame → β → Prop}
    (h : ∀ a ∈ items, ∀ f : Frame, f.value = toData a → f.names = [] → r f (image a)) :
    List.Forall₂ r (itemFrames [] (.list (items.map toData))) (items.map image) := by
  rw [itemFrames]
  generalize (items.map toData).length = total
  generalize 0 = start
  induction items generalizing start with
  | nil => exact .nil
  | cons a items ih =>
    exact .cons (h a List.mem_cons_self _ rfl rfl) (ih (fun b hb => h b (List.mem_cons_of_mem _ hb)) (start + 1))

/-- A loop writes what it encloses for one item after the other. -/
theorem writes_each {α : Type} {items : List α} {toData : α → Data} {texts : α → String}
    (h : s.Sees name (.list (items.map toData)))
    (hbody : ∀ a ∈ items, ∀ f : Frame, f.value = toData a → f.names = [] → NodesWrite (s.within f) body (texts a)) :
    (blockNode "each" name body).Writes s (String.join (items.map texts)) := by
  intro own insert p
  have hevaluated := evalAll_field h
  obtain ⟨after, hafter⟩ := forEach_writes
    (forall₂_itemFrames fun a ha f hvalue hnames p => hbody a ha f hvalue hnames own insert p.inBlock) p
  refine ⟨{ after with parts := p.parts }, ?_⟩
  rw [blockNode, renderNode, hevaluated]
  simp [Scope.evalNamed, hasItems, hafter, bind, Except.bind, pure, Except.pure]

end PromptPack.Template
