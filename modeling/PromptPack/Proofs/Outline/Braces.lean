import Mathlib
import PromptPack.Outline.Balance
/-!
# The brace that closes a body

A scan over bytes looks for the brace that closes a body: it counts the blocks that are open and jumps over quotations
and comments (`bodyEnd`). What stands between two matching braces is a sequence of items (`Balanced`). The scan passes
over balanced bytes without another effect than moving on (`scan_balanced`), and where it ends it has passed over
balanced bytes for each open block, or it has run to the end of the source (`scan_cases`).
-/

namespace PromptPack.Outline.Braces

/-! ## Bytes with a meaning -/

def opening : UInt8 := '{'.toUInt8

def closing : UInt8 := '}'.toUInt8

def doubleQuote : UInt8 := '\"'.toUInt8

def singleQuote : UInt8 := '\''.toUInt8

def backslash : UInt8 := '\\'.toUInt8

def slash : UInt8 := '/'.toUInt8

def star : UInt8 := '*'.toUInt8

def newline : UInt8 := '\n'.toUInt8

/-- The marks that a quotation begins and ends with. -/
def IsQuote (b : UInt8) : Prop := b = doubleQuote ∨ b = singleQuote

instance (b : UInt8) : Decidable (IsQuote b) := inferInstanceAs (Decidable (_ ∨ _))

/-! ## The scan -/

/-- Where the mark stands that ends a quotation, looked for from `i` on; behind all bytes when there is none. -/
def quoteStop (bytes : List UInt8) (quote : UInt8) (i : Nat) : Nat :=
  if h : i < bytes.length then
    if bytes[i] = quote then i
    else if bytes[i] = backslash then quoteStop bytes quote (i + 1 + 1)
    else quoteStop bytes quote (i + 1)
  else i
termination_by bytes.length - i

/-- Where the line ends. -/
def lineStop (bytes : List UInt8) (i : Nat) : Nat :=
  if h : i < bytes.length then
    if bytes[i] = newline then i else lineStop bytes (i + 1)
  else i
termination_by bytes.length - i

/-- Where the end of a block comment begins. -/
def commentStop (bytes : List UInt8) (i : Nat) : Nat :=
  if h : i + 1 < bytes.length then
    if bytes[i] = star ∧ bytes[i + 1] = slash then i else commentStop bytes (i + 1)
  else i
termination_by bytes.length - i

/-- A place in a scan: its offset, and how many blocks are open there. -/
structure Place where
  pos : Nat
  depth : Nat
  deriving DecidableEq

inductive Turn
  | onward (next : Place)
  | closed (stop : Nat)
  deriving DecidableEq

/-- One turn of the scan, at a place with the byte `b`. -/
def turn (bytes : List UInt8) (b : UInt8) (s : Place) : Turn :=
  if b = opening then .onward ⟨s.pos + 1, s.depth + 1⟩
  else if b = closing then
    if s.depth - 1 = 0 then .closed (s.pos + 1) else .onward ⟨s.pos + 1, s.depth - 1⟩
  else if IsQuote b then .onward ⟨quoteStop bytes b (s.pos + 1) + 1, s.depth⟩
  else if b = slash ∧ bytes[s.pos + 1]? = some slash then .onward ⟨lineStop bytes s.pos + 1, s.depth⟩
  else if b = slash ∧ bytes[s.pos + 1]? = some star then .onward ⟨commentStop bytes (s.pos + 2) + 2, s.depth⟩
  else .onward ⟨s.pos + 1, s.depth⟩

variable {bytes body after rest : List UInt8} {b quote : UInt8} {i stop : Nat} {s s' : Place}

theorem le_quoteStop (bytes : List UInt8) (quote : UInt8) (i : Nat) : i ≤ quoteStop bytes quote i := by
  fun_induction quoteStop bytes quote i <;> omega

theorem le_lineStop (bytes : List UInt8) (i : Nat) : i ≤ lineStop bytes i := by
  fun_induction lineStop bytes i <;> omega

theorem le_commentStop (bytes : List UInt8) (i : Nat) : i ≤ commentStop bytes i := by
  fun_induction commentStop bytes i <;> omega

/-- Every turn gets on. -/
theorem pos_lt_of_turn (h : turn bytes b s = .onward s') : s.pos < s'.pos := by
  have := le_quoteStop bytes b (s.pos + 1)
  have := le_lineStop bytes s.pos
  have := le_commentStop bytes (s.pos + 2)
  unfold turn at h
  split_ifs at h <;> obtain rfl := Turn.onward.inj h <;> dsimp only <;> omega

/-- Turn after turn, until the last block is closed or there are no more bytes. -/
def scan (bytes : List UInt8) (s : Place) : Nat :=
  if h : s.pos < bytes.length then
    match hturn : turn bytes bytes[s.pos] s with
    | .closed stop => stop
    | .onward next => scan bytes next
  else bytes.length
termination_by bytes.length - s.pos
decreasing_by
  have := pos_lt_of_turn hturn
  omega

/-- The end of the body whose opening brace stands right before the offset. -/
def bodyEnd (bytes : List UInt8) (start : Nat) : Nat := scan bytes ⟨start, 1⟩

/-- The places that a scan goes through, and where it ends. -/
inductive Runs (bytes : List UInt8) : Place → List Place → Nat → Prop
  | past {s : Place} : bytes.length ≤ s.pos → Runs bytes s [] bytes.length
  | closed {s : Place} {b : UInt8} {stop : Nat} : bytes[s.pos]? = some b → turn bytes b s = .closed stop →
      Runs bytes s [s] stop
  | onward {s next : Place} {b : UInt8} {places : List Place} {stop : Nat} : bytes[s.pos]? = some b →
      turn bytes b s = .onward next → Runs bytes next places stop → Runs bytes s (s :: places) stop

/-! ## Balanced bytes -/

/-- What a quotation may have between its marks: pairs of a backslash and any byte, and other bytes than a backslash and
the mark. -/
inductive Quoted (quote : UInt8) : List UInt8 → Prop
  | nil : Quoted quote []
  | escaped {b : UInt8} {body : List UInt8} : Quoted quote body → Quoted quote (backslash :: b :: body)
  | plain {b : UInt8} {body : List UInt8} : b ≠ backslash → b ≠ quote → Quoted quote body → Quoted quote (b :: body)

/-- An item other than a block, in front of the bytes `after`. -/
inductive Item : List UInt8 → List UInt8 → Prop
  | quotation {quote : UInt8} {body after : List UInt8} : IsQuote quote → Quoted quote body →
      Item (quote :: (body ++ [quote])) after
  | lineComment {body after : List UInt8} : newline ∉ body → Item (slash :: slash :: (body ++ [newline])) after
  /-- The comment ends where its end is seen for the first time. -/
  | blockComment {body after : List UInt8} : ¬ [star, slash] <:+: body →
      Item (slash :: star :: (body ++ [star, slash])) after
  | other {b : UInt8} {after : List UInt8} : b ≠ opening → b ≠ closing → ¬ IsQuote b →
      (b = slash → after.head? ≠ some slash ∧ after.head? ≠ some star) → Item [b] after

/-- A sequence of items, in front of the bytes `after`. -/
inductive Balanced : List UInt8 → List UInt8 → Prop
  | nil {after : List UInt8} : Balanced [] after
  | block {inner body after : List UInt8} : Balanced inner (closing :: (body ++ after)) → Balanced body after →
      Balanced (opening :: (inner ++ closing :: body)) after
  | item {item body after : List UInt8} : Item item (body ++ after) → Balanced body after → Balanced (item ++ body) after

/-! ## Jumps -/

theorem getElem_of_drop (h : bytes.drop i = b :: rest) :
    ∃ hi : i < bytes.length, bytes[i] = b ∧ bytes.drop (i + 1) = rest := by
  have hi : i < bytes.length := by
    by_contra hge
    rw [List.drop_eq_nil_of_le (Nat.le_of_not_lt hge)] at h
    cases h
  rw [List.drop_eq_getElem_cons hi] at h
  exact ⟨hi, List.cons.inj h⟩

theorem drop_of_append (h : bytes.drop i = body ++ rest) : bytes.drop (i + body.length) = rest := by
  rw [← List.drop_drop, h, List.drop_left]

theorem quoteStop_of_drop (h : bytes.drop i = b :: rest) : quoteStop bytes quote i =
    if b = quote then i else if b = backslash then quoteStop bytes quote (i + 1 + 1) else quoteStop bytes quote (i + 1) := by
  obtain ⟨hi, rfl, -⟩ := getElem_of_drop h
  rw [quoteStop, dif_pos hi]

theorem quoteStop_of_quoted (hquote : quote ≠ backslash) (hbody : Quoted quote body)
    (h : bytes.drop i = body ++ quote :: after) : quoteStop bytes quote i = i + body.length := by
  induction hbody generalizing i with
  | nil => rw [quoteStop_of_drop h, if_pos rfl]; rfl
  | @escaped b body _ ih =>
    obtain ⟨-, -, hnext⟩ := getElem_of_drop h
    obtain ⟨-, -, hnext⟩ := getElem_of_drop hnext
    rw [quoteStop_of_drop h, if_neg (Ne.symm hquote), if_pos rfl, ih hnext]
    simp only [List.length_cons]
    omega
  | @plain b body hback hne _ ih =>
    obtain ⟨-, -, hnext⟩ := getElem_of_drop h
    rw [quoteStop_of_drop h, if_neg hne, if_neg hback, ih hnext]
    simp only [List.length_cons]
    omega

theorem exists_quoted_or_le (bytes : List UInt8) (quote : UInt8) (i : Nat) :
    (∃ body after, Quoted quote body ∧ bytes.drop i = body ++ quote :: after ∧ quoteStop bytes quote i = i + body.length) ∨
      bytes.length ≤ quoteStop bytes quote i := by
  fun_induction quoteStop bytes quote i with
  | case1 i hi heq => exact .inl ⟨[], bytes.drop (i + 1), .nil, by rw [List.drop_eq_getElem_cons hi, heq]; rfl, rfl⟩
  | case2 i hi hne heq ih =>
    refine ih.imp ?_ id
    rintro ⟨body, after, hbody, hdrop, hstop⟩
    -- The escaped byte is there, since something comes after it.
    have hi' : i + 1 < bytes.length := by
      have := congrArg List.length hdrop
      simp only [List.length_drop, List.length_append, List.length_cons] at this
      omega
    refine ⟨backslash :: bytes[i + 1] :: body, after, .escaped hbody, ?_, by simp only [List.length_cons]; omega⟩
    rw [List.drop_eq_getElem_cons hi, List.drop_eq_getElem_cons hi', hdrop, heq]
    rfl
  | case3 i hi hne hback ih =>
    refine ih.imp ?_ id
    rintro ⟨body, after, hbody, hdrop, hstop⟩
    refine ⟨bytes[i] :: body, after, .plain hback hne hbody, ?_, by simp only [List.length_cons]; omega⟩
    rw [List.drop_eq_getElem_cons hi, hdrop]
    rfl
  | case4 i hi => exact .inr (Nat.le_of_not_lt hi)

theorem lineStop_of_drop (h : bytes.drop i = b :: rest) :
    lineStop bytes i = if b = newline then i else lineStop bytes (i + 1) := by
  obtain ⟨hi, rfl, -⟩ := getElem_of_drop h
  rw [lineStop, dif_pos hi]

theorem lineStop_of_not_mem (hbody : newline ∉ body) (h : bytes.drop i = body ++ newline :: after) :
    lineStop bytes i = i + body.length := by
  induction body generalizing i with
  | nil => rw [lineStop_of_drop h, if_pos rfl]; rfl
  | cons b body ih =>
    rw [List.mem_cons, not_or] at hbody
    obtain ⟨hne, hbody⟩ := hbody
    obtain ⟨-, -, hnext⟩ := getElem_of_drop h
    rw [lineStop_of_drop h, if_neg (Ne.symm hne), ih hbody hnext, List.length_cons]
    omega

theorem exists_line_or_le (bytes : List UInt8) (i : Nat) :
    (∃ body after, newline ∉ body ∧ bytes.drop i = body ++ newline :: after ∧ lineStop bytes i = i + body.length) ∨
      bytes.length ≤ lineStop bytes i := by
  fun_induction lineStop bytes i with
  | case1 i hi heq => exact .inl ⟨[], bytes.drop (i + 1), by simp, by rw [List.drop_eq_getElem_cons hi, heq]; rfl, rfl⟩
  | case2 i hi hne ih =>
    refine ih.imp ?_ id
    rintro ⟨body, after, hbody, hdrop, hstop⟩
    refine ⟨bytes[i] :: body, after, by simp [Ne.symm hne, hbody], ?_, by simp only [List.length_cons]; omega⟩
    rw [List.drop_eq_getElem_cons hi, hdrop]
    rfl
  | case3 i hi => exact .inr (Nat.le_of_not_lt hi)

theorem commentStop_of_drop {b' : UInt8} (h : bytes.drop i = b :: b' :: rest) :
    commentStop bytes i = if b = star ∧ b' = slash then i else commentStop bytes (i + 1) := by
  obtain ⟨-, rfl, hnext⟩ := getElem_of_drop h
  obtain ⟨hi, rfl, -⟩ := getElem_of_drop hnext
  rw [commentStop, dif_pos hi]

/-- An end of a comment that begins in the body of one is not its last. -/
theorem infix_cons_iff {b' : UInt8} : [star, slash] <:+: b :: b' :: rest ↔
    (b = star ∧ b' = slash) ∨ [star, slash] <:+: b' :: rest := by
  rw [List.infix_cons_iff, List.cons_prefix_cons, List.cons_prefix_cons]
  simp [eq_comm]

theorem commentStop_of_not_infix (hbody : ¬ [star, slash] <:+: body) (h : bytes.drop i = body ++ star :: slash :: after) :
    commentStop bytes i = i + body.length := by
  induction body generalizing i with
  | nil => rw [commentStop_of_drop h, if_pos ⟨rfl, rfl⟩]; rfl
  | cons b body ih =>
    obtain ⟨-, -, hnext⟩ := getElem_of_drop h
    have hnext' : commentStop bytes (i + 1) = i + 1 + body.length :=
      ih (fun hinfix => hbody (List.infix_cons hinfix)) hnext
    cases body with
    | nil =>
      have hne : ¬ (b = star ∧ star = slash) := fun heq => absurd heq.2 (by decide)
      rw [commentStop_of_drop h, if_neg hne, hnext', List.length_cons]
      omega
    | cons b' body =>
      have hne : ¬ (b = star ∧ b' = slash) := fun heq => hbody (infix_cons_iff.2 (.inl heq))
      rw [commentStop_of_drop h, if_neg hne, hnext']
      simp only [List.length_cons]
      omega

theorem exists_comment_or_le (bytes : List UInt8) (i : Nat) :
    (∃ body after, ¬ [star, slash] <:+: body ∧ bytes.drop i = body ++ star :: slash :: after ∧
        commentStop bytes i = i + body.length) ∨ bytes.length ≤ commentStop bytes i + 1 := by
  fun_induction commentStop bytes i with
  | case1 i hi heq =>
    refine .inl ⟨[], bytes.drop (i + 1 + 1), by simp, ?_, rfl⟩
    rw [List.drop_eq_getElem_cons (Nat.lt_of_succ_lt hi), List.drop_eq_getElem_cons hi, heq.1, heq.2]
    rfl
  | case2 i hi hne ih =>
    refine ih.imp ?_ id
    rintro ⟨body, after, hbody, hdrop, hstop⟩
    refine ⟨bytes[i] :: body, after, ?_, ?_, by simp only [List.length_cons]; omega⟩
    · intro hinfix
      cases body with
      | nil => exact absurd hinfix.length_le (by simp)
      | cons b' body =>
        obtain ⟨_, hnext, -⟩ := getElem_of_drop hdrop
        rw [hnext] at hne
        exact (infix_cons_iff.1 hinfix).elim hne hbody
    · rw [List.drop_eq_getElem_cons (Nat.lt_of_succ_lt hi), hdrop]
      rfl
  | case3 i hi => exact .inr (Nat.le_of_not_lt hi)

/-! ## Turns -/

theorem drop_succ (h : bytes.drop i = b :: rest) : bytes.drop (i + 1) = rest := by
  obtain ⟨-, -, hnext⟩ := getElem_of_drop h
  exact hnext

theorem getElem?_of_drop (h : bytes.drop i = b :: rest) : bytes[i]? = some b := by
  rw [← List.head?_drop, h, List.head?_cons]

theorem isQuote_ne (h : IsQuote b) : b ≠ opening ∧ b ≠ closing ∧ b ≠ slash ∧ b ≠ backslash := by
  rcases h with rfl | rfl <;> decide

theorem turn_opening : turn bytes opening s = .onward ⟨s.pos + 1, s.depth + 1⟩ := if_pos rfl

theorem turn_closing : turn bytes closing s =
    if s.depth - 1 = 0 then .closed (s.pos + 1) else .onward ⟨s.pos + 1, s.depth - 1⟩ := by
  rw [turn, if_neg (by decide), if_pos rfl]

theorem turn_quote (h : IsQuote b) : turn bytes b s = .onward ⟨quoteStop bytes b (s.pos + 1) + 1, s.depth⟩ := by
  obtain ⟨hopen, hclose, -, -⟩ := isQuote_ne h
  rw [turn, if_neg hopen, if_neg hclose, if_pos h]

theorem turn_slash : turn bytes slash s =
    if bytes[s.pos + 1]? = some slash then .onward ⟨lineStop bytes s.pos + 1, s.depth⟩
    else if bytes[s.pos + 1]? = some star then .onward ⟨commentStop bytes (s.pos + 2) + 2, s.depth⟩
    else .onward ⟨s.pos + 1, s.depth⟩ := by
  rw [turn, if_neg (by decide), if_neg (by decide), if_neg (by decide)]
  simp only [true_and]

theorem turn_other (hopen : b ≠ opening) (hclose : b ≠ closing) (hquote : ¬ IsQuote b) (hslash : b ≠ slash) :
    turn bytes b s = .onward ⟨s.pos + 1, s.depth⟩ := by
  rw [turn, if_neg hopen, if_neg hclose, if_neg hquote, if_neg (fun h => hslash h.1), if_neg (fun h => hslash h.1)]

/-- A turn passes over a whole item. -/
theorem turn_item {item : List UInt8} (hitem : Item item after) (h : bytes.drop s.pos = item ++ after) :
    ∃ b, bytes[s.pos]? = some b ∧ turn bytes b s = .onward ⟨s.pos + item.length, s.depth⟩ := by
  cases hitem with
  | @quotation quote body _ hquote hbody =>
    have hnext : bytes.drop (s.pos + 1) = body ++ quote :: after := by simpa using drop_succ h
    refine ⟨quote, getElem?_of_drop h, ?_⟩
    rw [turn_quote hquote, quoteStop_of_quoted (isQuote_ne hquote).2.2.2 hbody hnext]
    simp [Nat.add_assoc, Nat.add_comm 1]
  | @lineComment body _ hbody =>
    have hline : newline ∉ slash :: slash :: body := by
      have hne : newline ≠ slash := by decide
      simp [hbody, hne]
    have hdrop : bytes.drop s.pos = (slash :: slash :: body) ++ newline :: after := by simpa using h
    refine ⟨slash, getElem?_of_drop h, ?_⟩
    rw [turn_slash, if_pos (getElem?_of_drop (drop_succ hdrop)), lineStop_of_not_mem hline hdrop]
    simp [Nat.add_assoc]
  | @blockComment body _ hbody =>
    have hnext : bytes.drop (s.pos + 1) = star :: (body ++ star :: slash :: after) := by simpa using drop_succ h
    have hstar := getElem?_of_drop hnext
    refine ⟨slash, getElem?_of_drop h, ?_⟩
    rw [turn_slash, if_neg (by rw [hstar]; decide), if_pos hstar, commentStop_of_not_infix hbody (drop_succ hnext)]
    simp [Nat.add_assoc, Nat.add_comm 2]
  | @other b _ hopen hclose hquote hslash =>
    refine ⟨b, getElem?_of_drop h, ?_⟩
    by_cases hb : b = slash
    · subst hb
      obtain ⟨hline, hblock⟩ := hslash rfl
      have hhead : bytes[s.pos + 1]? = after.head? := by rw [← List.head?_drop, drop_succ h]; rfl
      rw [turn_slash, if_neg (hhead ▸ hline), if_neg (hhead ▸ hblock)]
      rfl
    · rw [turn_other hopen hclose hquote hb]
      rfl

/-- All that a turn can do. -/
inductive Takes (bytes : List UInt8) (s : Place) : Turn → Prop
  | opens {rest : List UInt8} : bytes.drop s.pos = opening :: rest → Takes bytes s (.onward ⟨s.pos + 1, s.depth + 1⟩)
  | closes {rest : List UInt8} : bytes.drop s.pos = closing :: rest → s.depth - 1 ≠ 0 →
      Takes bytes s (.onward ⟨s.pos + 1, s.depth - 1⟩)
  | ends {rest : List UInt8} : bytes.drop s.pos = closing :: rest → s.depth - 1 = 0 → Takes bytes s (.closed (s.pos + 1))
  | passes {item after : List UInt8} : Item item after → bytes.drop s.pos = item ++ after →
      Takes bytes s (.onward ⟨s.pos + item.length, s.depth⟩)
  /-- What has begun does not end any more. -/
  | runsOut {pos : Nat} : bytes.length ≤ pos → Takes bytes s (.onward ⟨pos, s.depth⟩)

theorem Takes.passes_to {item : List UInt8} {pos : Nat} (after : List UInt8) (hitem : Item item after)
    (h : bytes.drop s.pos = item ++ after) (hpos : pos = s.pos + item.length) : Takes bytes s (.onward ⟨pos, s.depth⟩) :=
  hpos ▸ .passes hitem h

theorem takes_turn (h : bytes.drop s.pos = b :: rest) : Takes bytes s (turn bytes b s) := by
  by_cases hopen : b = opening
  · subst hopen
    rw [turn_opening]
    exact .opens h
  by_cases hclose : b = closing
  · subst hclose
    rw [turn_closing]
    split_ifs with hdepth
    · exact .ends h hdepth
    · exact .closes h hdepth
  by_cases hquote : IsQuote b
  · -- A quotation that does not end takes all that is left; so do comments below.
    rw [turn_quote hquote]
    rcases exists_quoted_or_le bytes b (s.pos + 1) with ⟨body, after, hbody, hdrop, hstop⟩ | hout
    · rw [drop_succ h] at hdrop
      exact .passes_to after (.quotation hquote hbody) (by rw [h, hdrop]; simp) (by rw [hstop]; simp; omega)
    · exact .runsOut (Nat.le_succ_of_le hout)
  by_cases hslash : b = slash
  · subst hslash
    have hhead : bytes[s.pos + 1]? = rest.head? := by rw [← List.head?_drop, drop_succ h]
    rw [turn_slash, hhead]
    split_ifs with hline hblock
    · obtain ⟨rest', rfl⟩ := List.head?_eq_some_iff.1 hline
      have hlineStop : lineStop bytes s.pos = lineStop bytes (s.pos + 1 + 1) := by
        rw [lineStop_of_drop h, if_neg (by decide), lineStop_of_drop (drop_succ h), if_neg (by decide)]
      rcases exists_line_or_le bytes (s.pos + 1 + 1) with ⟨body, after, hbody, hdrop, hstop⟩ | hout
      · rw [drop_succ (drop_succ h)] at hdrop
        exact .passes_to after (.lineComment hbody) (by rw [h, hdrop]; simp) (by rw [hlineStop, hstop]; simp; omega)
      · exact .runsOut (by omega)
    · obtain ⟨rest', rfl⟩ := List.head?_eq_some_iff.1 hblock
      rcases exists_comment_or_le bytes (s.pos + 2) with ⟨body, after, hbody, hdrop, hstop⟩ | hout
      · rw [drop_succ (drop_succ h)] at hdrop
        exact .passes_to after (.blockComment hbody) (by rw [h, hdrop]; simp) (by rw [hstop]; simp; omega)
      · exact .runsOut (by omega)
    · exact .passes (.other hopen hclose hquote fun _ => ⟨hline, hblock⟩) h
  · rw [turn_other hopen hclose hquote hslash]
    exact .passes (.other hopen hclose hquote fun heq => absurd heq hslash) h

/-! ## Runs -/

theorem scan_of_le (h : bytes.length ≤ s.pos) : scan bytes s = bytes.length := by
  rw [scan, dif_neg (Nat.not_lt.2 h)]

theorem scan_of_getElem? (h : bytes[s.pos]? = some b) : scan bytes s =
    match turn bytes b s with
    | .closed stop => stop
    | .onward next => scan bytes next := by
  obtain ⟨hi, rfl⟩ := List.getElem?_eq_some_iff.1 h
  rw [scan, dif_pos hi]
  split <;> rename_i heq <;> rw [heq]

/-- The scan has passed over balanced bytes as if they were not there. -/
theorem scan_balanced (hbody : Balanced body after) {depth : Nat} (hdepth : 0 < depth) (h : bytes.drop i = body ++ after) :
    scan bytes ⟨i, depth⟩ = scan bytes ⟨i + body.length, depth⟩ := by
  induction hbody generalizing i depth with
  | nil => rfl
  | @block inner body after _ _ ihinner ihbody =>
    have hinner : bytes.drop (i + 1) = inner ++ closing :: (body ++ after) := by simpa using drop_succ h
    have hclose := drop_of_append hinner
    have hbelow : (⟨i + 1 + inner.length, depth + 1⟩ : Place).depth - 1 ≠ 0 := by
      show depth + 1 - 1 ≠ 0
      omega
    calc scan bytes ⟨i, depth⟩
      _ = scan bytes ⟨i + 1, depth + 1⟩ := by rw [scan_of_getElem? (getElem?_of_drop h), turn_opening]
      _ = scan bytes ⟨i + 1 + inner.length, depth + 1⟩ := ihinner (Nat.succ_pos depth) hinner
      _ = scan bytes ⟨i + 1 + inner.length + 1, depth⟩ := by
        rw [scan_of_getElem? (getElem?_of_drop hclose), turn_closing, if_neg hbelow]
        rfl
      _ = scan bytes ⟨i + 1 + inner.length + 1 + body.length, depth⟩ := ihbody hdepth (drop_succ hclose)
      _ = scan bytes ⟨i + (opening :: (inner ++ closing :: body)).length, depth⟩ := by
        congr 2
        simp only [List.length_cons, List.length_append]
        omega
  | @item item body after hitem _ ih =>
    rw [List.append_assoc] at h
    obtain ⟨b, hb, hturn⟩ := turn_item (s := ⟨i, depth⟩) hitem h
    rw [scan_of_getElem? hb, hturn, List.length_append, ← Nat.add_assoc]
    exact ih hdepth (drop_of_append h)

/-- The bytes up to the braces that close the innermost `n` open blocks, in front of the bytes `after`. -/
inductive Closes : Nat → List UInt8 → List UInt8 → Prop
  | nil {after : List UInt8} : Closes 0 [] after
  | cons {n : Nat} {body text after : List UInt8} : Balanced body (closing :: (text ++ after)) → Closes n text after →
      Closes (n + 1) (body ++ closing :: text) after

variable {n : Nat} {text : List UInt8}

theorem Closes.close (h : Closes n text after) : Closes (n + 1) (closing :: text) after := .cons .nil h

theorem Closes.block (h : Closes (n + 2) text after) : Closes (n + 1) (opening :: text) after := by
  obtain _ | @⟨_, inner, _, _, hinner, hbelow⟩ := h
  obtain _ | @⟨_, body, text, _, hbody, htext⟩ := hbelow
  have hblock : Balanced (opening :: (inner ++ closing :: body)) (closing :: (text ++ after)) :=
    .block (by simpa using hinner) hbody
  simpa using Closes.cons hblock htext

theorem Closes.item {item : List UInt8} (hitem : Item item (text ++ after)) (h : Closes (n + 1) text after) :
    Closes (n + 1) (item ++ text) after := by
  obtain _ | @⟨_, body, text, _, hbody, htext⟩ := h
  have hmore : Balanced (item ++ body) (closing :: (text ++ after)) := .item (by simpa using hitem) hbody
  simpa using Closes.cons hmore htext

/-- Where a scan ends, the braces that it was looking for are behind it, or else all bytes are. -/
theorem scan_cases (bytes : List UInt8) (s : Place) (hdepth : 0 < s.depth) :
    (∃ text after, Closes s.depth text after ∧ bytes.drop s.pos = text ++ after ∧ scan bytes s = s.pos + text.length) ∨
      scan bytes s = bytes.length := by
  fun_induction scan bytes s with
  | case1 s hi stop hturn =>
    have htakes := takes_turn (List.drop_eq_getElem_cons hi)
    rw [hturn] at htakes
    cases htakes with
    | @ends rest hdrop hlast =>
      have hone : s.depth = 0 + 1 := by omega
      exact .inl ⟨[closing], rest, hone ▸ Closes.close .nil, hdrop, rfl⟩
  | case2 s hi next hturn ih =>
    have htakes := takes_turn (List.drop_eq_getElem_cons hi)
    rw [hturn] at htakes
    obtain ⟨pos, depth⟩ := s
    obtain ⟨depth, rfl⟩ : ∃ n, depth = n + 1 := ⟨depth - 1, by simp only at hdepth; omega⟩
    cases htakes with
    | opens hdrop =>
      refine (ih (Nat.succ_pos _)).imp ?_ id
      rintro ⟨text, after, hcloses, hnext, hstop⟩
      refine ⟨opening :: text, after, hcloses.block, ?_, by simp only [hstop, List.length_cons]; omega⟩
      rw [hdrop, ← drop_succ hdrop, hnext]
      rfl
    | closes hdrop hmore =>
      refine (ih (Nat.pos_of_ne_zero hmore)).imp ?_ id
      rintro ⟨text, after, hcloses, hnext, hstop⟩
      refine ⟨closing :: text, after, hcloses.close, ?_, by simp only [hstop, List.length_cons]; omega⟩
      rw [hdrop, ← drop_succ hdrop, hnext]
      rfl
    | @passes item rest hitem hdrop =>
      refine (ih hdepth).imp ?_ id
      rintro ⟨text, after, hcloses, hnext, hstop⟩
      have hrest : rest = text ++ after := (drop_of_append hdrop).symm.trans hnext
      refine ⟨item ++ text, after, Closes.item (hrest ▸ hitem) hcloses, ?_, by simp only [hstop, List.length_append]; omega⟩
      rw [hdrop, hrest, List.append_assoc]
    | runsOut hout => exact .inr (scan_of_le hout)
  | case3 s hi => exact .inr rfl

/-- A scan takes no more turns than there are bytes, and none with no block open: the count never falls below zero. -/
theorem exists_runs (bytes : List UInt8) (s : Place) (hdepth : 0 < s.depth) :
    ∃ places, Runs bytes s places (scan bytes s) ∧ places.length ≤ bytes.length - s.pos ∧ ∀ p ∈ places, 0 < p.depth := by
  fun_induction scan bytes s with
  | case1 s hi stop hturn =>
    refine ⟨[s], .closed (List.getElem?_eq_getElem hi) hturn, ?_, by simpa using hdepth⟩
    simp only [List.length_singleton]
    omega
  | case2 s hi next hturn ih =>
    have htakes := takes_turn (List.drop_eq_getElem_cons hi)
    rw [hturn] at htakes
    have hnext : 0 < next.depth := by
      cases htakes with
      | opens => exact Nat.succ_pos _
      | closes _ hmore => exact Nat.pos_of_ne_zero hmore
      | passes => exact hdepth
      | runsOut => exact hdepth
    obtain ⟨places, hruns, hlength, hplaces⟩ := ih hnext
    refine ⟨s :: places, .onward (List.getElem?_eq_getElem hi) hturn hruns, ?_, List.forall_mem_cons.2 ⟨hdepth, hplaces⟩⟩
    have := pos_lt_of_turn hturn
    rw [List.length_cons]
    omega
  | case3 s hi => exact ⟨[], .past (Nat.le_of_not_lt hi), Nat.zero_le _, nofun⟩

/-! ## Bodies -/

theorem bodyEnd_of_balanced (hbody : Balanced body (closing :: after)) (h : bytes.drop i = body ++ closing :: after) :
    bodyEnd bytes i = i + body.length + 1 := by
  have hclose := drop_of_append h
  rw [bodyEnd, scan_balanced hbody Nat.one_pos h, scan_of_getElem? (getElem?_of_drop hclose), turn_closing]
  rfl

theorem bodyEnd_cases (bytes : List UInt8) (i : Nat) :
    (∃ body after, Balanced body (closing :: after) ∧ bytes.drop i = body ++ closing :: after ∧
        bodyEnd bytes i = i + body.length + 1) ∨ bodyEnd bytes i = bytes.length := by
  refine (scan_cases bytes ⟨i, 1⟩ Nat.one_pos).imp ?_ id
  rintro ⟨text, after, hcloses, hdrop, -⟩
  obtain _ | @⟨_, body, _, _, hbody, _ | _⟩ := hcloses
  have hdrop : bytes.drop i = body ++ closing :: after := by simpa using hdrop
  exact ⟨body, after, hbody, hdrop, bodyEnd_of_balanced hbody hdrop⟩

end PromptPack.Outline.Braces
