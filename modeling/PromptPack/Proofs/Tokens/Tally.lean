import PromptPack.Tokens.Counter
/-!
# What a tally remembers

A tally may forget any count at any time, and it cannot tell texts with the same digest apart. All it
remembers are counts of texts that it was asked for (`Recalls`): each step keeps that, so it holds after every
run. Hence what is remembered or forgotten makes no difference to an answer, as long as no text asked for
before has the digest of this one and another count (`answers_do_not_depend_on_memory`).
-/

namespace PromptPack.Tally

/-- What a tally goes through: it is asked for a count, raw or as it is shown, or it forgets counts. -/
inductive Step
  | raw (s : String)
  | shown (s : String)
  | forget (kept : UInt64 → Bool)

/-- The text whose count a step asks for. -/
def Step.text? : Step → Option String
  | .raw s => some s
  | .shown s => some s
  | .forget _ => none

/-- The texts asked for, in order. -/
def texts (steps : List Step) : List String := steps.filterMap Step.text?

/-- What a step answers, and the tally behind it. -/
def step (t : Tally) : Step → Option Nat × Tally
  | .raw s => (some (t.rawCount s).1, (t.rawCount s).2)
  | .shown s => (some (t.count s).1, (t.count s).2)
  | .forget kept => (none, t.forget kept)

/-- The answers of a run, one for each step. -/
def answers (t : Tally) : List Step → List (Option Nat)
  | [] => []
  | s :: rest => (t.step s).1 :: (t.step s).2.answers rest

/-- The tally behind a run. -/
def after (t : Tally) (steps : List Step) : Tally := steps.foldl (fun t s => (t.step s).2) t

/-- The tally of a counter that has counted nothing yet. -/
def new (c : TokenCounter) : Tally := { counter := c }

variable {t : Tally} {asked : List String} {s : String}

theorem answers_getElem? (t : Tally) (steps : List Step) (i : Nat) :
    (t.answers steps)[i]? = steps[i]?.map fun s => ((t.after (steps.take i)).step s).1 := by
  induction steps generalizing t i with
  | nil => rfl
  | cons s rest ih =>
    cases i with
    | zero => rfl
    | succ i => exact ih (t.step s).2 i

/-! ## Counts of texts asked for -/

/-- Each count remembered is that of a text asked for, under the digest of that text. -/
def Recalls (t : Tally) (asked : List String) : Prop :=
  ∀ entry ∈ t.remembered, ∃ s ∈ asked, entry = (Digest.ofText s, t.counter.rawCount s)

theorem Recalls.mono {more : List String} (h : t.Recalls asked) (hsub : asked ⊆ more) : t.Recalls more := by
  intro entry hentry
  obtain ⟨s, hs, heq⟩ := h entry hentry
  exact ⟨s, hsub hs, heq⟩

/-- A count is taken from what is remembered, or it is made and remembered. -/
theorem rawCount_cases (t : Tally) (s : String) :
    (∃ n, (Digest.ofText s, n) ∈ t.remembered ∧ t.rawCount s = (n, t)) ∨
      t.rawCount s = (t.counter.rawCount s,
        { t with remembered := (Digest.ofText s, t.counter.rawCount s) :: t.remembered }) := by
  unfold rawCount
  dsimp only
  split
  · rename_i n hlookup
    obtain ⟨before, rest, hsplit, -⟩ := List.lookup_eq_some_iff.1 hlookup
    exact .inl ⟨n, by rw [hsplit]; simp, rfl⟩
  · exact .inr rfl

theorem counter_rawCount (t : Tally) (s : String) : (t.rawCount s).2.counter = t.counter := by
  obtain ⟨n, -, heq⟩ | heq := t.rawCount_cases s <;> rw [heq]

theorem Recalls.rawCount (h : t.Recalls asked) (s : String) : (t.rawCount s).2.Recalls (asked ++ [s]) := by
  have hbefore := h.mono (List.subset_append_left asked [s])
  obtain ⟨n, -, heq⟩ | heq := t.rawCount_cases s
  · rw [heq]
    exact hbefore
  · rw [heq]
    intro entry hentry
    rcases List.mem_cons.1 hentry with rfl | hentry
    · exact ⟨s, by simp, rfl⟩
    · exact hbefore entry hentry

theorem counter_step (t : Tally) (s : Step) : (t.step s).2.counter = t.counter := by
  cases s with
  | raw s => exact t.counter_rawCount s
  | shown s => exact t.counter_rawCount s
  | forget kept => rfl

/-- What a step leaves to be remembered are counts of texts asked for before and of its own. -/
theorem Recalls.step (h : t.Recalls asked) (s : Step) : (t.step s).2.Recalls (asked ++ s.text?.toList) := by
  cases s with
  | raw s => exact h.rawCount s
  | shown s => exact h.rawCount s
  | forget kept =>
    intro entry hentry
    obtain ⟨s, hs, heq⟩ := h entry (List.mem_filter.1 hentry).1
    exact ⟨s, List.mem_append_left _ hs, heq⟩

theorem counter_after (t : Tally) (steps : List Step) : (t.after steps).counter = t.counter := by
  induction steps generalizing t with
  | nil => rfl
  | cons s rest ih => exact (ih (t.step s).2).trans (t.counter_step s)

theorem texts_cons (s : Step) (rest : List Step) : texts (s :: rest) = s.text?.toList ++ texts rest := by
  rw [texts, List.filterMap_cons]
  cases s.text? <;> rfl

theorem Recalls.after (h : t.Recalls asked) (steps : List Step) : (t.after steps).Recalls (asked ++ texts steps) := by
  induction steps generalizing t asked with
  | nil => exact h.mono (List.subset_append_left asked [])
  | cons s rest ih =>
    rw [texts_cons, ← List.append_assoc]
    exact ih (h.step s)

theorem recalls_new (c : TokenCounter) : (new c).Recalls [] := nofun

/-! ## Answers -/

/-- The raw count is right where each text asked for before with the same digest has the same count. -/
theorem Recalls.rawCount_eq (h : t.Recalls asked)
    (hsame : ∀ s' ∈ asked, Digest.ofText s' = Digest.ofText s → t.counter.rawCount s' = t.counter.rawCount s) :
    (t.rawCount s).1 = t.counter.rawCount s := by
  obtain ⟨n, hn, heq⟩ | heq := t.rawCount_cases s
  · obtain ⟨s', hs', hentry⟩ := h _ hn
    obtain ⟨hdigest, rfl⟩ := Prod.mk.inj hentry
    rw [heq]
    exact hsame s' hs' hdigest.symm
  · rw [heq]

theorem count_eq (t : Tally) (s : String) : (t.count s).1 = t.counter.shown (t.rawCount s).1 :=
  congrArg (fun c => c.shown (t.rawCount s).1) (t.counter_rawCount s)

theorem count_new (c : TokenCounter) (s : String) : ((new c).count s).1 = c.count s := count_eq (new c) s

/-- In every run of a tally, whatever it forgets between the counts, each text asked for has the count that its
encoding gives and is shown as by a new tally, unless a text asked for before it has the same digest and
another count. -/
theorem answers_do_not_depend_on_memory (c : TokenCounter) (steps : List Step) (i : Nat) (s : String)
    (hdigest : ∀ s' ∈ texts (steps.take i), c.rawCount s' ≠ c.rawCount s → Digest.ofText s' ≠ Digest.ofText s) :
    (steps[i]? = some (.raw s) → ((new c).answers steps)[i]? = some (some (c.encode s).length)) ∧
      (steps[i]? = some (.shown s) → ((new c).answers steps)[i]? = some (some ((new c).count s).1)) := by
  have hrecalls : ((new c).after (steps.take i)).Recalls (texts (steps.take i)) := (recalls_new c).after _
  have hcounter : ((new c).after (steps.take i)).counter = c := counter_after _ _
  have hraw : (((new c).after (steps.take i)).rawCount s).1 = c.rawCount s := by
    rw [hrecalls.rawCount_eq, hcounter]
    intro s' hs' heq
    rw [hcounter]
    exact Decidable.byContradiction fun hne => hdigest s' hs' hne heq
  constructor
  · intro hstep
    rw [answers_getElem?, hstep, Option.map_some, step, hraw]
    rfl
  · intro hstep
    rw [answers_getElem?, hstep, Option.map_some, step, count_eq, hraw, hcounter, count_new]
    rfl

/-- One token for each character. -/
def perCharacter : TokenCounter := ⟨.o200k, fun s => s.toList.map Char.toNat, true⟩

/-- The same text is asked for twice, and what is known of it is lost in between. -/
def forgetful : List Step := [.raw "ab", .forget fun _ => false, .raw "b", .shown "ab"]

theorem answers_of_forgetful :
    (∀ s' ∈ texts (forgetful.take 3), perCharacter.rawCount s' ≠ perCharacter.rawCount "ab" →
        Digest.ofText s' ≠ Digest.ofText "ab") ∧
      forgetful[3]? = some (.shown "ab") ∧
      ((new perCharacter).answers forgetful)[3]? = some (some ((new perCharacter).count "ab").1) := by
  have htexts : texts (forgetful.take 3) = ["ab", "b"] := rfl
  have hdigest : ∀ s' ∈ texts (forgetful.take 3), perCharacter.rawCount s' ≠ perCharacter.rawCount "ab" →
      Digest.ofText s' ≠ Digest.ofText "ab" := by
    rw [htexts]
    decide +kernel
  exact ⟨hdigest, rfl, (answers_do_not_depend_on_memory perCharacter forgetful 3 "ab" hdigest).2 rfl⟩

end PromptPack.Tally
