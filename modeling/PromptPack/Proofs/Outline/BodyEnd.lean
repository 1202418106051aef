import PromptPack.Proofs.Outline.Braces
import PromptPack.Proofs.Text.Bytes
/-!
# The end of a body in a text

The length of a body is found by its characters. The bytes of a character that has a meaning for the search are one
byte, and no other character has that byte, so the scan over bytes finds the same end (`scan_encoded`). The
body therefore runs to the brace that matches the one before it, or else to the end of the source
(`body_ends_at_matching_brace`).
-/

namespace PromptPack.Outline.Braces

open Glob (bytesOf)
open Text

variable {bytes after : List UInt8} {c mark : Char} {cs rest : List Char} {i n pos : Nat}

/-- The bytes of characters. -/
def encoded (cs : List Char) : List UInt8 := cs.flatMap bytesOf

theorem encoded_cons (c : Char) (cs : List Char) : encoded (c :: cs) = bytesOf c ++ encoded cs := List.flatMap_cons

theorem encoded_append (cs rest : List Char) : encoded (cs ++ rest) = encoded cs ++ encoded rest := List.flatMap_append

/-! ## Marks -/

/-- Characters of one byte. -/
def IsMark (c : Char) : Prop := c.val.toNat ≤ 127

instance (c : Char) : Decidable (IsMark c) := inferInstanceAs (Decidable (_ ≤ _))

theorem IsMark.bytesOf (h : IsMark mark) : bytesOf mark = [mark.toUInt8] := bytesOf_ascii h

theorem IsMark.utf8Size (h : IsMark mark) : mark.utf8Size = 1 := by rw [← length_bytesOf, h.bytesOf]; rfl

theorem IsMark.encoded_cons (h : IsMark mark) (cs : List Char) : encoded (mark :: cs) = mark.toUInt8 :: encoded cs := by
  rw [Braces.encoded_cons, h.bytesOf]
  rfl

theorem IsMark.mem_bytesOf_iff (h : IsMark mark) : mark.toUInt8 ∈ Glob.bytesOf c ↔ c = mark := by
  have hbyte : mark.toUInt8.toNat = mark.val.toNat := by
    have := h
    unfold IsMark at this
    show mark.val.toNat % 256 = _
    omega
  rw [Text.mem_bytesOf_iff (by rw [hbyte]; exact h), hbyte, Char.ext_iff, ← UInt32.toNat_inj]

theorem IsMark.toUInt8_eq_iff (h : IsMark mark) (hc : IsMark c) : c.toUInt8 = mark.toUInt8 ↔ c = mark := by
  rw [← h.mem_bytesOf_iff, hc.bytesOf, List.mem_singleton, eq_comm]

/-- What a text begins with is told by its first byte. -/
theorem IsMark.head?_encoded_iff (h : IsMark mark) : (encoded cs).head? = some mark.toUInt8 ↔ cs.head? = some mark := by
  cases cs with
  | nil => simp [encoded]
  | cons c cs =>
    rw [Braces.encoded_cons, List.head?_cons, Option.some_inj]
    constructor
    · intro hhead
      obtain ⟨b, tail, hbytes⟩ := exists_cons_bytesOf c
      rw [List.head?_append_of_ne_nil _ (hbytes ▸ List.cons_ne_nil b tail)] at hhead
      exact h.mem_bytesOf_iff.1 (List.mem_of_mem_head? hhead)
    · rintro rfl
      rw [h.bytesOf]
      rfl

/-- The bytes behind the first one of a character are no marks. -/
theorem ne_of_mem_tail_bytesOf (h : IsMark mark) {b : UInt8} (hb : b ∈ (Glob.bytesOf c).tail) : b ≠ mark.toUInt8 := by
  rintro rfl
  obtain rfl : c = mark := h.mem_bytesOf_iff.1 (List.mem_of_mem_tail hb)
  rw [h.bytesOf] at hb
  cases hb

/-! ## Jumps -/

/-- A jump from `i` to `pos` that leaves the characters `r.1`, where the count of bytes goes from `n` to `r.2`. A jump over
what does not end may go behind the last byte. -/
structure Jumps (bytes : List UInt8) (i pos n : Nat) (r : List Char × Nat) : Prop where
  left : bytes.drop pos = encoded r.1
  count : min pos bytes.length + n = i + r.2

theorem Jumps.of_add {k : Nat} {r : List Char × Nat} (h : Jumps bytes (i + k) pos (n + k) r) : Jumps bytes i pos n r :=
  ⟨h.left, by have := h.count; omega⟩

theorem le_length_of_drop (hi : i ≤ bytes.length) (front : List UInt8) (h : bytes.drop i = front ++ after) :
    i + front.length ≤ bytes.length := by
  have hlength := congrArg List.length h
  rw [List.length_append, List.length_drop] at hlength
  omega

theorem jumps_here (hi : i ≤ bytes.length) (front : List UInt8) (h : bytes.drop i = front ++ encoded rest) (n : Nat) :
    Jumps bytes i (i + front.length) n (rest, n + front.length) := by
  have := le_length_of_drop hi front h
  exact ⟨drop_of_append h, by simp only; omega⟩

/-- The end of the text is reached, or passed over. -/
theorem jumps_out {front : List UInt8} (hi : i ≤ bytes.length) (h : bytes.drop i = front) (hpos : bytes.length ≤ pos) (n : Nat) :
    Jumps bytes i pos n ([], n + front.length) := by
  have hlength := congrArg List.length h
  rw [List.length_drop] at hlength
  exact ⟨List.drop_eq_nil_of_le hpos, by simp only; omega⟩

theorem add_utf8Size_le (hi : i ≤ bytes.length) (h : bytes.drop i = encoded (c :: cs)) : i + c.utf8Size ≤ bytes.length := by
  rw [← length_bytesOf]
  exact le_length_of_drop hi (bytesOf c) (h.trans (encoded_cons c cs))

/-- The offset where what is left begins. -/
theorem drop_char (h : bytes.drop i = encoded (c :: cs)) : bytes.drop (i + c.utf8Size) = encoded cs := by
  rw [← length_bytesOf]
  exact drop_of_append (h.trans (encoded_cons c cs))

/-- Bytes that neither end nor escape anything make no difference to where a quotation ends. -/
theorem quoteStop_plain {quote : UInt8} {plain : List UInt8} (hplain : ∀ b ∈ plain, b ≠ quote ∧ b ≠ backslash)
    (h : bytes.drop i = plain ++ after) : quoteStop bytes quote i = quoteStop bytes quote (i + plain.length) := by
  induction plain generalizing i with
  | nil => rfl
  | cons b plain ih =>
    obtain ⟨⟨hquote, hback⟩, hplain⟩ := List.forall_mem_cons.1 hplain
    rw [quoteStop_of_drop h, if_neg hquote, if_neg hback, ih hplain (drop_succ h), List.length_cons, Nat.add_assoc,
      Nat.add_comm 1]

theorem isMark_backslash : IsMark '\\' := by decide

theorem isMark_of_quote (h : mark = '\"' ∨ mark = '\'') : IsMark mark ∧ IsQuote mark.toUInt8 := by
  rcases h with rfl | rfl <;> decide

theorem length_le_quoteStop (hi : bytes.length ≤ i) (quote : UInt8) : bytes.length ≤ quoteStop bytes quote i :=
  Nat.le_trans hi (le_quoteStop bytes quote i)

theorem quoteStop_jumps (hmark : IsMark mark) (hi : i ≤ bytes.length) (h : bytes.drop i = encoded cs) (n : Nat) :
    Jumps bytes i (quoteStop bytes mark.toUInt8 i + 1) n (skipQuoted mark cs n) := by
  -- A backslash takes the first byte of the next character with it; the others are not looked for.
  have hescape (hne : '\\' ≠ mark) {i : Nat} {rest : List Char} (h : bytes.drop i = encoded ('\\' :: rest)) :
      quoteStop bytes mark.toUInt8 i = quoteStop bytes mark.toUInt8 (i + 1 + 1) := by
    rw [isMark_backslash.encoded_cons] at h
    rw [quoteStop_of_drop h, if_neg ((hmark.toUInt8_eq_iff isMark_backslash).not.2 hne)]
    exact if_pos rfl
  fun_induction skipQuoted mark cs n generalizing i with
  | case1 n =>
    have hend : bytes.length ≤ i := List.drop_eq_nil_iff.1 h
    exact jumps_out hi h (Nat.le_succ_of_le (length_le_quoteStop hend _)) n
  | case2 c rest n heq =>
    obtain rfl : c = mark := by simpa using heq
    rw [hmark.encoded_cons] at h
    rw [quoteStop_of_drop h, if_pos rfl, hmark.utf8Size]
    exact jumps_here hi [c.toUInt8] h n
  | case3 c n hne heq =>
    obtain rfl : c = '\\' := by simpa using heq
    have hend : bytes.length ≤ i + 1 := List.drop_eq_nil_iff.1 (drop_char h)
    rw [hescape (by simpa using hne) h]
    exact jumps_out hi h (Nat.le_succ_of_le (length_le_quoteStop (Nat.le_succ_of_le hend) _)) n
  | case4 c n hne heq d rest ih =>
    obtain rfl : c = '\\' := by simpa using heq
    have hd := add_utf8Size_le hi h
    obtain ⟨b, tail, hbytes⟩ := exists_cons_bytesOf d
    have htail : bytes.drop (i + 1 + 1) = tail ++ encoded rest := by
      have hnext := drop_char h
      rw [Braces.encoded_cons, hbytes] at hnext
      exact drop_succ hnext
    have hsize : 1 + tail.length = d.utf8Size := by rw [← length_bytesOf, hbytes, List.length_cons, Nat.add_comm]
    have hplain : ∀ x ∈ tail, x ≠ mark.toUInt8 ∧ x ≠ backslash := by
      intro x hx
      have hx : x ∈ (bytesOf d).tail := by rwa [hbytes]
      exact ⟨ne_of_mem_tail_bytesOf hmark hx, ne_of_mem_tail_bytesOf isMark_backslash hx⟩
    rw [hescape (by simpa using hne) h, quoteStop_plain hplain htail, Nat.add_assoc _ 1, hsize]
    exact (ih (add_utf8Size_le hd (drop_char h)) (drop_char (drop_char h))).of_add.of_add
  | case5 c rest n hne hback ih =>
    have hplain : ∀ x ∈ bytesOf c, x ≠ mark.toUInt8 ∧ x ≠ backslash := by
      intro x hx
      refine ⟨?_, ?_⟩
      · rintro rfl
        exact hne (by simpa using hmark.mem_bytesOf_iff.1 hx)
      · rintro rfl
        exact hback (by simpa using isMark_backslash.mem_bytesOf_iff.1 hx)
    rw [quoteStop_plain hplain (h.trans (encoded_cons c rest)), length_bytesOf]
    exact (ih (add_utf8Size_le hi h) (drop_char h)).of_add

theorem isMark_newline : IsMark '\n' := by decide

theorem lineStop_plain {plain : List UInt8} (hplain : newline ∉ plain) (h : bytes.drop i = plain ++ after) :
    lineStop bytes i = lineStop bytes (i + plain.length) := by
  induction plain generalizing i with
  | nil => rfl
  | cons b plain ih =>
    rw [List.mem_cons, not_or] at hplain
    rw [lineStop_of_drop h, if_neg (Ne.symm hplain.1), ih hplain.2 (drop_succ h), List.length_cons, Nat.add_assoc,
      Nat.add_comm 1]

theorem lineStop_jumps (hi : i ≤ bytes.length) (h : bytes.drop i = encoded cs) (n : Nat) :
    Jumps bytes i (lineStop bytes i + 1) n (skipLine cs n) := by
  fun_induction skipLine cs n generalizing i with
  | case1 n =>
    have hend : bytes.length ≤ i := List.drop_eq_nil_iff.1 h
    exact jumps_out hi h (Nat.le_succ_of_le (Nat.le_trans hend (le_lineStop bytes i))) n
  | case2 c rest n heq =>
    obtain rfl : c = '\n' := by simpa using heq
    rw [isMark_newline.encoded_cons] at h
    have hstop : lineStop bytes i = i := by
      rw [lineStop_of_drop h]
      exact if_pos rfl
    rw [hstop]
    exact jumps_here hi [newline] h n
  | case3 c rest n hne ih =>
    have hplain : newline ∉ bytesOf c := fun hmem => hne (by simpa using isMark_newline.mem_bytesOf_iff.1 hmem)
    rw [lineStop_plain hplain (h.trans (encoded_cons c rest)), length_bytesOf]
    exact (ih (add_utf8Size_le hi h) (drop_char h)).of_add

theorem isMark_star : IsMark '*' := by decide

theorem isMark_slash : IsMark '/' := by decide

/-- Behind the last byte, jumps are told apart no more. -/
theorem Jumps.of_min_eq {pos' : Nat} {r : List Char × Nat} (h : Jumps bytes i pos n r)
    (heq : min pos' bytes.length = min pos bytes.length) : Jumps bytes i pos' n r := by
  refine ⟨?_, by rw [heq, h.count]⟩
  rw [List.drop_eq_drop_min, heq, ← List.drop_eq_drop_min, h.left]

theorem commentStop_succ {b : UInt8} (h : bytes.drop i = b :: after) (hne : ¬ (b = star ∧ after.head? = some slash)) :
    min (commentStop bytes i + 2) bytes.length = min (commentStop bytes (i + 1) + 2) bytes.length := by
  obtain ⟨hi, rfl, hnext⟩ := getElem_of_drop h
  rw [commentStop.eq_1 bytes i]
  split_ifs with hlt heq
  · have hhead : after.head? = some bytes[i + 1] := by rw [← hnext, List.head?_drop, List.getElem?_eq_getElem hlt]
    exact absurd ⟨heq.1, by rw [hhead, heq.2]⟩ hne
  · rfl
  · have := le_commentStop bytes (i + 1)
    omega

theorem commentStop_plain {plain : List UInt8} (hplain : star ∉ plain) (h : bytes.drop i = plain ++ after) :
    min (commentStop bytes i + 2) bytes.length = min (commentStop bytes (i + plain.length) + 2) bytes.length := by
  induction plain generalizing i with
  | nil => rfl
  | cons b plain ih =>
    rw [List.mem_cons, not_or] at hplain
    rw [commentStop_succ h (fun heq => hplain.1 heq.1.symm), ih hplain.2 (drop_succ h), List.length_cons, Nat.add_assoc,
      Nat.add_comm 1]

theorem commentStop_jumps (hi : i ≤ bytes.length) (h : bytes.drop i = encoded cs) (n : Nat) :
    Jumps bytes i (commentStop bytes i + 2) n (skipBlock cs n) := by
  fun_induction skipBlock cs n generalizing i with
  | case1 n =>
    have hend : bytes.length ≤ i := List.drop_eq_nil_iff.1 h
    exact jumps_out hi h (Nat.le_add_right_of_le (Nat.le_trans hend (le_commentStop bytes i))) n
  | case2 n rest =>
    rw [isMark_star.encoded_cons, isMark_slash.encoded_cons] at h
    have hstop : commentStop bytes i = i := by
      rw [commentStop_of_drop h]
      exact if_pos ⟨rfl, rfl⟩
    rw [hstop]
    exact jumps_here hi [star, slash] h n
  | case3 c rest n hne ih =>
    have hnext : min (commentStop bytes i + 2) bytes.length =
        min (commentStop bytes (i + c.utf8Size) + 2) bytes.length := by
      by_cases hstar : c = '*'
      · subst hstar
        have hhead : (encoded rest).head? ≠ some slash := by
          refine isMark_slash.head?_encoded_iff.not.2 fun hhead => ?_
          obtain ⟨rest', rfl⟩ := List.head?_eq_some_iff.1 hhead
          exact hne rest' rfl rfl
        rw [isMark_star.encoded_cons] at h
        exact commentStop_succ h (fun heq => hhead heq.2)
      · rw [← length_bytesOf]
        exact commentStop_plain (isMark_star.mem_bytesOf_iff.not.2 hstar) (h.trans (encoded_cons c rest))
    exact ((ih (add_utf8Size_le hi h) (drop_char h)).of_min_eq hnext).of_add

/-! ## The scan of a text -/

theorem balanced_plain {plain : List UInt8}
    (hplain : ∀ b ∈ plain, b ≠ opening ∧ b ≠ closing ∧ ¬ IsQuote b ∧ b ≠ slash) : Balanced plain after := by
  induction plain with
  | nil => exact .nil
  | cons b plain ih =>
    obtain ⟨⟨hopen, hclose, hquote, hslash⟩, hplain⟩ := List.forall_mem_cons.1 hplain
    have hother : Item [b] (plain ++ after) := .other hopen hclose hquote fun heq => absurd heq hslash
    exact .item hother (ih hplain)

theorem balanced_char (hopen : c ≠ '{') (hclose : c ≠ '}') (hquote : ¬ (c = '\"' ∨ c = '\''))
    (hslash : c = '/' → rest.head? ≠ some '/' ∧ rest.head? ≠ some '*') : Balanced (bytesOf c) (encoded rest) := by
  by_cases heq : c = '/'
  · subst heq
    obtain ⟨hline, hblock⟩ := hslash rfl
    have hother : Item [slash] (encoded rest) := .other (by decide) (by decide) (by decide) fun _ =>
      ⟨isMark_slash.head?_encoded_iff.not.2 hline, isMark_star.head?_encoded_iff.not.2 hblock⟩
    exact .item hother .nil
  · -- No byte of another character is a mark.
    have hne {mark : Char} (hmark : IsMark mark) (hc : c ≠ mark) {b : UInt8} (hb : b ∈ bytesOf c) : b ≠ mark.toUInt8 := by
      rintro rfl
      exact hc (hmark.mem_bytesOf_iff.1 hb)
    rw [not_or] at hquote
    exact balanced_plain fun b hb => ⟨hne (by decide) hopen hb, hne (by decide) hclose hb,
      not_or.2 ⟨hne (by decide) hquote.1 hb, hne (by decide) hquote.2 hb⟩, hne isMark_slash heq hb⟩

theorem scan_min (pos depth : Nat) : scan bytes ⟨min pos bytes.length, depth⟩ = scan bytes ⟨pos, depth⟩ := by
  rcases Nat.le_total pos bytes.length with hle | hge
  · rw [Nat.min_eq_left hle]
  · rw [Nat.min_eq_right hge, scan_of_le (Nat.le_refl _), scan_of_le hge]

/-- A scan and a count that agree behind a jump agree in front of it. -/
theorem scan_of_jumps {r : List Char × Nat} {depth count : Nat} (hjump : Jumps bytes i pos n r)
    (hbehind : ∀ {j}, j ≤ bytes.length → bytes.drop j = encoded r.1 → scan bytes ⟨j, depth⟩ + r.2 = j + count) :
    scan bytes ⟨pos, depth⟩ + n = i + count := by
  have hdrop : bytes.drop (min pos bytes.length) = encoded r.1 := by rw [← List.drop_eq_drop_min, hjump.left]
  have hagree := hbehind (Nat.min_le_right pos _) hdrop
  have hcount := hjump.count
  rw [scan_min] at hagree
  omega

/-- The scan over bytes and the count over characters end at the same brace. -/
theorem scan_encoded (depth : Nat) (hi : i ≤ bytes.length) (h : bytes.drop i = encoded cs) (n : Nat) :
    scan bytes ⟨i, depth + 1⟩ + n = i + balanceFrom depth cs n := by
  -- Both read the same character at `i`; behind what it opens, closes or skips they agree by induction.
  fun_induction balanceFrom depth cs n generalizing i with
  | case1 depth n =>
    have hend : bytes.length ≤ i := List.drop_eq_nil_iff.1 h
    rw [scan_of_le hend]
    omega
  | case2 depth n c rest heq ih =>
    obtain rfl : c = '{' := by simpa using heq
    rw [IsMark.encoded_cons (by decide)] at h
    have hbyte : bytes[i]? = some opening := getElem?_of_drop h
    rw [scan_of_getElem? hbyte, turn_opening]
    exact scan_of_jumps (jumps_here hi [opening] h n) ih
  | case3 n c rest _ heq =>
    obtain rfl : c = '}' := by simpa using heq
    rw [IsMark.encoded_cons (by decide)] at h
    have hbyte : bytes[i]? = some closing := getElem?_of_drop h
    rw [scan_of_getElem? hbyte, turn_closing, if_pos (by rfl)]
    simp only
    omega
  | case4 n c rest _ heq depth ih =>
    obtain rfl : c = '}' := by simpa using heq
    rw [IsMark.encoded_cons (by decide)] at h
    have hbyte : bytes[i]? = some closing := getElem?_of_drop h
    rw [scan_of_getElem? hbyte, turn_closing, if_neg (by simp)]
    exact scan_of_jumps (jumps_here hi [closing] h n) ih
  | case5 depth n c rest _ _ heq after =>
    rename_i ih
    obtain ⟨hmark, hquote⟩ : IsMark c ∧ IsQuote c.toUInt8 := isMark_of_quote (by simpa using heq)
    rw [hmark.encoded_cons] at h
    have hnext : i + 1 ≤ bytes.length := le_length_of_drop hi [c.toUInt8] h
    rw [scan_of_getElem? (getElem?_of_drop h), turn_quote hquote]
    exact scan_of_jumps (quoteStop_jumps hmark hnext (drop_succ h) (n + 1)).of_add ih
  | case6 depth n c rest _ _ _ heq after =>
    rename_i ih
    obtain ⟨rfl, hhead⟩ : c = '/' ∧ rest.head? = some '/' := by simpa using heq
    rw [isMark_slash.encoded_cons] at h
    have hbyte : bytes[i]? = some slash := getElem?_of_drop h
    have hafter : bytes[i + 1]? = some slash := by
      rw [← List.head?_drop, drop_succ h]
      exact isMark_slash.head?_encoded_iff.2 hhead
    have hnext : i + 1 ≤ bytes.length := le_length_of_drop hi [slash] h
    have hstop : lineStop bytes i = lineStop bytes (i + 1) := by
      rw [lineStop_of_drop h]
      exact if_neg (by decide)
    rw [scan_of_getElem? hbyte, turn_slash, if_pos hafter]
    simp only [hstop]
    exact scan_of_jumps (lineStop_jumps hnext (drop_succ h) (n + 1)).of_add ih
  | case7 depth n c rest _ _ _ hline heq after =>
    rename_i ih
    obtain ⟨rfl, hhead⟩ : c = '/' ∧ rest.head? = some '*' := by simpa using heq
    obtain ⟨rest, rfl⟩ := List.head?_eq_some_iff.1 hhead
    rw [isMark_slash.encoded_cons, isMark_star.encoded_cons] at h
    have hbyte : bytes[i]? = some slash := getElem?_of_drop h
    have hafter : bytes[i + 1]? = some star := getElem?_of_drop (drop_succ h)
    have hnext : i + 2 ≤ bytes.length := le_length_of_drop hi [slash, star] h
    rw [scan_of_getElem? hbyte, turn_slash, if_neg (by rw [hafter]; decide), if_pos hafter]
    exact scan_of_jumps (commentStop_jumps hnext (drop_succ (drop_succ h)) (n + 2)).of_add ih
  | case8 depth n c rest hopen hclose hquote hline hblock ih =>
    have hslash : c = '/' → rest.head? ≠ some '/' ∧ rest.head? ≠ some '*' := by
      rintro rfl
      exact ⟨by simpa using hline, by simpa using hblock⟩
    have hchar : Balanced (bytesOf c) (encoded rest) :=
      balanced_char (by simpa using hopen) (by simpa using hclose) (by simpa using hquote) hslash
    have hdrop : bytes.drop i = bytesOf c ++ encoded rest := h.trans (encoded_cons c rest)
    rw [scan_balanced hchar (Nat.succ_pos depth) hdrop]
    refine scan_of_jumps (jumps_here hi (bytesOf c) hdrop n) ?_
    rw [length_bytesOf]
    exact ih

theorem bodyEnd_encoded (front rest : List Char) :
    bodyEnd (encoded (front ++ rest)) (encoded front).length = (encoded front).length + bodyLength rest := by
  have hdrop : (encoded (front ++ rest)).drop (encoded front).length = encoded rest := by
    rw [encoded_append, List.drop_left]
  have hle : (encoded front).length ≤ (encoded (front ++ rest)).length := by
    rw [encoded_append, List.length_append]
    exact Nat.le_add_right _ _
  exact scan_encoded 0 hle hdrop 0

/-! ## Where a body ends -/

theorem Item.of_head?_eq {item after' : List UInt8} (h : Item item after) (heq : after.head? = after'.head?) :
    Item item after' := by
  cases h with
  | quotation hquote hbody => exact .quotation hquote hbody
  | lineComment hbody => exact .lineComment hbody
  | blockComment hbody => exact .blockComment hbody
  | other hopen hclose hquote hslash => exact .other hopen hclose hquote (heq ▸ hslash)

/-- Whether bytes are balanced depends on no more than the first byte behind them. -/
theorem Balanced.of_head?_eq {body after' : List UInt8} (h : Balanced body after) (heq : after.head? = after'.head?) :
    Balanced body after' := by
  have hmore {text after : List UInt8} : (text ++ after).head? = text.head?.or after.head? := List.head?_append
  induction h generalizing after' with
  | nil => exact .nil
  | block _ _ ihinner ihbody => exact .block (ihinner rfl) (ihbody heq)
  | item hitem _ ih => exact .item (hitem.of_head?_eq (by rw [hmore, hmore, heq])) (ih heq)

/-- What a block may have between its braces. -/
def IsBody (body : List UInt8) : Prop := Balanced body [closing]

theorem isBody_iff {body : List UInt8} : IsBody body ↔ Balanced body (closing :: after) :=
  ⟨fun h => h.of_head?_eq rfl, fun h => h.of_head?_eq rfl⟩

/-- What it is for a body that begins at `start` to end at `stop`. -/
structure EndsAt (bytes : List UInt8) (start stop : Nat) : Prop where
  /-- It ends behind the brace that closes it. -/
  closed {body after : List UInt8} : IsBody body → bytes.drop start = body ++ closing :: after →
    stop = start + body.length + 1
  /-- One that nothing closes has all bytes to the end of the source. -/
  unclosed : (¬ ∃ body after, IsBody body ∧ bytes.drop start = body ++ closing :: after) → stop = bytes.length
  bounds : start ≤ stop ∧ stop ≤ bytes.length
  /-- The search for it ends, and there is a block open at each of its turns. -/
  turns : ∃ places, Runs bytes ⟨start, 1⟩ places stop ∧ places.length ≤ bytes.length - start ∧ ∀ p ∈ places, 0 < p.depth

theorem endsAt_bodyEnd {start : Nat} (h : start ≤ bytes.length) : EndsAt bytes start (bodyEnd bytes start) where
  closed hbody hdrop := bodyEnd_of_balanced (isBody_iff.1 hbody) hdrop
  unclosed hnone := by
    refine (bodyEnd_cases bytes start).resolve_left ?_
    rintro ⟨body, after, hbody, hdrop, -⟩
    exact hnone ⟨body, after, isBody_iff.2 hbody, hdrop⟩
  bounds := by
    rcases bodyEnd_cases bytes start with ⟨body, after, -, hdrop, hstop⟩ | hstop
    · have := le_length_of_drop h (body ++ [closing]) (hdrop.trans (List.append_cons body closing after))
      rw [List.length_append, List.length_singleton] at this
      omega
    · omega
  turns := exists_runs bytes ⟨start, 1⟩ Nat.one_pos

/-- A body ends behind the brace that matches the one in front of it, whatever stands before and behind them, or else where
the source ends. The characters of a text are counted to the same end. -/
theorem body_ends_at_matching_brace (bytes : List UInt8) (start : Nat) (h : start ≤ bytes.length) :
    EndsAt bytes start (bodyEnd bytes start) ∧
      ∀ front rest, bytes = encoded (front ++ rest) → start = (encoded front).length →
        bodyEnd bytes start = start + bodyLength rest := by
  refine ⟨endsAt_bodyEnd h, ?_⟩
  rintro front rest rfl rfl
  exact bodyEnd_encoded front rest

/-- The quotation, the comment and the block have a closing brace each. -/
theorem body_ends_behind_quotation_comment_block :
    bodyLength ['\"', '}', '\"', '/', '*', '}', '*', '/', '{', '}', '}', 'z'] = 11 := by
  have hquoted : Quoted doubleQuote [closing] := .plain (by decide) (by decide) .nil
  have hcomment : ¬ [star, slash] <:+: [closing] := by decide
  have hbody : IsBody [doubleQuote, closing, doubleQuote, slash, star, closing, star, slash, opening, closing] :=
    .item (.quotation (by decide) hquoted) (.item (.blockComment hcomment) (.block .nil .nil))
  obtain ⟨hends, hcount⟩ := body_ends_at_matching_brace
    (encoded (['{'] ++ ['\"', '}', '\"', '/', '*', '}', '*', '/', '{', '}', '}', 'z'])) 1 (by decide)
  have hstop := hends.closed hbody rfl
  have hlength := hcount ['{'] _ rfl (by decide)
  rw [hstop] at hlength
  simp only [List.length_cons, List.length_nil] at hlength
  omega

end PromptPack.Outline.Braces
