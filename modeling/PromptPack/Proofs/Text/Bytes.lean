import PromptPack.Glob.Match
import PromptPack.Text.Decoding
/-!
# The bytes of a text

Globs are matched against bytes. The bytes of a text are those of its characters one after the other, and
only a slash has the byte of a slash among its bytes. Texts are in order just when their bytes are
(`lt_iff_bytes_lt`). Exactly the bytes of texts are well formed, and each decodes to its text (`decode?_eq_some_iff`).
-/

namespace PromptPack.Text

theorem toList_loop_eq (bytes : ByteArray) (i : Nat) (front : List UInt8) :
    ByteArray.toList.loop bytes i front = front.reverse ++ bytes.data.toList.drop i := by
  fun_induction ByteArray.toList.loop bytes i front with
  | case1 i front hlt ih =>
    have hi : i < bytes.data.toList.length := by simpa using hlt
    have hget : bytes.get! i = bytes.data.toList[i] := by
      rw [ByteArray.get!, getElem!_pos bytes.data i hlt, Array.getElem_toList]
    rw [ih, List.drop_eq_getElem_cons hi, hget, List.reverse_cons, List.append_assoc, List.singleton_append]
  | case2 i front hge =>
    rw [List.drop_eq_nil_of_le (by simpa using Nat.le_of_not_lt hge), List.append_nil]

theorem toUTF8_toList (s : String) : s.toUTF8.toList = s.toList.flatMap Glob.bytesOf := by
  have hbytes : s.toByteArray = (s.toList.flatMap Glob.bytesOf).toByteArray := by
    conv => lhs; rw [← String.ofList_toList (s := s), String.toByteArray_ofList]
    rfl
  rw [String.toUTF8_eq_toByteArray, hbytes, ByteArray.toList, toList_loop_eq, List.toList_data_toByteArray]
  rfl

theorem toUTF8_toList_inj {s t : String} : s.toUTF8.toList = t.toUTF8.toList ↔ s = t := by
  constructor
  · intro h
    rw [ByteArray.toList, ByteArray.toList, toList_loop_eq, toList_loop_eq] at h
    exact String.toByteArray_inj.1 (ByteArray.ext (Array.toList_inj.1 h))
  · rintro rfl
    rfl

theorem bytesOf_ascii {c : Char} (h : c.val.toNat ≤ 127) : Glob.bytesOf c = [UInt8.ofNat c.val.toNat] := by
  rw [Glob.bytesOf, String.utf8EncodeChar]
  exact if_pos h

/-- Bytes below 128 stand for themselves only. -/
theorem le_toNat_of_mem_bytesOf {c : Char} (h : 127 < c.val.toNat) {b : UInt8} (hb : b ∈ Glob.bytesOf c) :
    128 ≤ b.toNat := by
  -- Each byte of a longer character is some `n % a` put on top of a mark of at least 128.
  have hmarked (n a mark : Nat) (ha : 0 < a) (hmark : 128 ≤ mark) (hsum : a + mark ≤ 256) :
      128 ≤ (UInt8.ofNat (n % a + mark)).toNat := by
    have := Nat.mod_lt n ha
    rw [UInt8.toNat_ofNat']
    omega
  unfold Glob.bytesOf String.utf8EncodeChar at hb
  dsimp only at hb
  rw [if_neg (Nat.not_le.2 h)] at hb
  split at hb
  · simp only [List.mem_cons, List.not_mem_nil, or_false] at hb
    rcases hb with rfl | rfl <;> apply hmarked <;> decide
  · split at hb
    · simp only [List.mem_cons, List.not_mem_nil, or_false] at hb
      rcases hb with rfl | rfl | rfl <;> apply hmarked <;> decide
    · simp only [List.mem_cons, List.not_mem_nil, or_false] at hb
      rcases hb with rfl | rfl | rfl | rfl <;> apply hmarked <;> decide

/-- The byte of an ASCII character is among the bytes of that character only. -/
theorem mem_bytesOf_iff {b : UInt8} (hb : b.toNat ≤ 127) {c : Char} : b ∈ Glob.bytesOf c ↔ c.val.toNat = b.toNat := by
  rcases Nat.lt_or_ge 127 c.val.toNat with hhigh | hlow
  · refine iff_of_false (fun h => ?_) (by omega)
    have := le_toNat_of_mem_bytesOf hhigh h
    omega
  · rw [bytesOf_ascii hlow, List.mem_singleton, ← UInt8.toNat_inj, UInt8.toNat_ofNat', eq_comm]
    omega

/-- An ASCII character of a text is told by its byte. -/
theorem byte_mem_of_mem {c : Char} (hc : c.val.toNat ≤ 127) {s : String} (h : c ∈ s.toList) :
    UInt8.ofNat c.val.toNat ∈ s.toByteArray.data.toList := by
  have hbyte : UInt8.ofNat c.val.toNat ∈ s.toUTF8.toList := by
    rw [toUTF8_toList, List.mem_flatMap]
    exact ⟨c, h, by simp [bytesOf_ascii hc]⟩
  rw [ByteArray.toList, toList_loop_eq, String.toUTF8_eq_toByteArray] at hbyte
  simpa using hbyte

theorem slash_mem_bytesOf_iff {c : Char} : Glob.slash ∈ Glob.bytesOf c ↔ c = '/' := by
  rw [mem_bytesOf_iff (by decide), Char.ext_iff, ← UInt32.toNat_inj]
  rfl

theorem length_bytesOf (c : Char) : (Glob.bytesOf c).length = c.utf8Size := String.length_utf8EncodeChar c

theorem exists_cons_bytesOf (c : Char) : ∃ b rest, Glob.bytesOf c = b :: rest :=
  List.exists_cons_of_length_pos (by rw [length_bytesOf]; exact c.utf8Size_pos)

/-! ## Order -/

theorem ofNat_lt_ofNat_iff {m n : Nat} (hm : m < 256) (hn : n < 256) : UInt8.ofNat m < UInt8.ofNat n ↔ m < n := by
  rw [UInt8.lt_iff_toNat_lt, UInt8.toNat_ofNat', UInt8.toNat_ofNat', Nat.mod_eq_of_lt hm, Nat.mod_eq_of_lt hn]

theorem ofNat_eq_ofNat_iff {m n : Nat} (hm : m < 256) (hn : n < 256) : UInt8.ofNat m = UInt8.ofNat n ↔ m = n := by
  rw [← UInt8.toNat_inj, UInt8.toNat_ofNat', UInt8.toNat_ofNat', Nat.mod_eq_of_lt hm, Nat.mod_eq_of_lt hn]

theorem toNat_val_lt (c : Char) : c.val.toNat < 1114112 := by
  rcases c.valid with h | ⟨-, h⟩
  · exact Nat.lt_trans h (by decide)
  · exact h

/-- Characters in order have their bytes in order, whatever comes behind them: a longer character begins with a higher
byte, and the bytes of characters of one length are digits to the base 64, the highest first. -/
theorem bytesOf_append_lt {c d : Char} (h : c < d) (rest rest' : List UInt8) :
    Glob.bytesOf c ++ rest < Glob.bytesOf d ++ rest' := by
  have hlt : c.val.toNat < d.val.toNat := h
  have hd := toNat_val_lt d
  unfold Glob.bytesOf String.utf8EncodeChar
  generalize c.val.toNat = m at hlt
  generalize d.val.toNat = n at hlt hd
  have hdigits (k : Nat) (hk : k < 1114112) :
      k / 64 / 64 = k / 4096 ∧ k / 4096 / 64 = k / 262144 ∧ k / 262144 % 8 = k / 262144 := by omega
  have hm := hdigits m (Nat.lt_trans hlt hd)
  have hn := hdigits n hd
  dsimp only
  repeat' split
  all_goals
    simp (disch := omega) only [List.cons_append, List.nil_append, List.cons_lt_cons_iff, ofNat_lt_ofNat_iff,
      ofNat_eq_ofNat_iff]
    omega

theorem flatMap_bytesOf_lt {cs ds : List Char} (h : cs < ds) : cs.flatMap Glob.bytesOf < ds.flatMap Glob.bytesOf := by
  induction cs generalizing ds with
  | nil =>
    cases ds with
    | nil => exact absurd h (List.lt_irrefl _)
    | cons d ds =>
      obtain ⟨b, rest, hbytes⟩ := exists_cons_bytesOf d
      rw [List.flatMap_nil, List.flatMap_cons, hbytes]
      exact List.nil_lt_cons _ _
  | cons c cs ih =>
    cases ds with
    | nil => exact absurd h (List.not_lt_nil _)
    | cons d ds =>
      rw [List.flatMap_cons, List.flatMap_cons]
      rcases List.cons_lt_cons_iff.1 h with hlt | ⟨rfl, hlt⟩
      · exact bytesOf_append_lt hlt _ _
      · exact List.append_left_lt (ih hlt)

theorem lt_iff_bytes_lt {s t : String} : s < t ↔ s.toUTF8.toList < t.toUTF8.toList := by
  rw [toUTF8_toList, toUTF8_toList, String.lt_iff]
  refine ⟨flatMap_bytesOf_lt, fun h => List.not_le.1 fun hle => ?_⟩
  rcases List.le_iff_lt_or_eq.1 hle with hlt | heq
  · exact List.lt_asymm h (flatMap_bytesOf_lt hlt)
  · exact List.lt_irrefl _ (heq ▸ h)

/-! ## Decoding -/

variable {b : UInt8} {bytes rest : List UInt8} {more low high bits n code : Nat} {c : Char}

theorem continuation_zero : continuation 0 low high bits bytes = (n, some code) ↔ n = 0 ∧ code = bits := by
  rw [continuation, Prod.mk.injEq, Option.some.injEq, eq_comm, eq_comm (a := bits)]

theorem continuation_succ : continuation (more + 1) low high bits bytes = (n, some code) ↔
    ∃ x rest m, bytes = x :: rest ∧ low ≤ x.toNat ∧ x.toNat ≤ high ∧
      continuation more 0x80 0xBF (bits * 64 + (x.toNat - 0x80)) rest = (m, some code) ∧ n = m + 1 := by
  cases bytes with
  | nil => simp [continuation]
  | cons x rest =>
    rw [continuation]
    split
    · rename_i hrange
      cases hcontinued : continuation more 0x80 0xBF (bits * 64 + (x.toNat - 0x80)) rest with
      | mk m code' =>
        simp only [Prod.mk.injEq, List.cons.injEq]
        grind
    · rename_i hrange
      simp only [Prod.mk.injEq, reduceCtorEq, and_false, List.cons.injEq, false_iff]
      rintro ⟨_, _, _, ⟨rfl, rfl⟩, hlow, hhigh, -⟩
      exact hrange ⟨hlow, hhigh⟩

theorem ofNat_eq_iff {m : Nat} (hm : m < 256) : UInt8.ofNat m = b ↔ m = b.toNat := by
  rw [← UInt8.toNat_inj, UInt8.toNat_ofNat', Nat.mod_eq_of_lt hm]

/-- What a leading byte promises. After the lowest of its kind the next byte is so high that the character needs as many
bytes; the other two exceptions leave out surrogates and what is past the last code point. -/
theorem lead?_eq_some_iff {l : Lead} : lead? b.toNat = some l ↔
    (0xC2 ≤ b.toNat ∧ b.toNat ≤ 0xDF ∧ l = ⟨1, 0x80, 0xBF, b.toNat - 0xC0⟩) ∨
      (0xE0 ≤ b.toNat ∧ b.toNat ≤ 0xEF ∧ l =
        ⟨2, if b.toNat = 0xE0 then 0xA0 else 0x80, if b.toNat = 0xED then 0x9F else 0xBF, b.toNat - 0xE0⟩) ∨
      (0xF0 ≤ b.toNat ∧ b.toNat ≤ 0xF4 ∧ l =
        ⟨3, if b.toNat = 0xF0 then 0x90 else 0x80, if b.toNat = 0xF4 then 0x8F else 0xBF, b.toNat - 0xF0⟩) := by
  unfold lead?
  simp only [Bool.and_eq_true, decide_eq_true_eq, beq_iff_eq]
  grind

theorem decodeFirst_of_lead (hb : 0x80 ≤ b.toNat) : decodeFirst b rest = (some c, n) ↔
    ∃ l code, lead? b.toNat = some l ∧ continuation l.more l.low l.high l.bits rest = (n, some code) ∧
      c = Char.ofNat code := by
  rw [decodeFirst, if_neg (by omega)]
  cases lead? b.toNat with
  | none => simp
  | some l =>
    simp only [Option.some.injEq, exists_and_left, exists_eq_left']
    cases continuation l.more l.low l.high l.bits rest with
    | mk m code? =>
      cases code? with
      | none => simp
      | some code =>
        simp only [Prod.mk.injEq, Option.some.injEq]
        exact ⟨fun ⟨hc, hm⟩ => ⟨code, ⟨hm, rfl⟩, hc.symm⟩, fun ⟨_, ⟨hm, hcode⟩, hc⟩ => ⟨hcode ▸ hc.symm, hm⟩⟩

theorem toNat_ofNat_of_valid (h : code < 0xD800 ∨ 0xDFFF < code ∧ code < 0x110000) :
    (Char.ofNat code).val.toNat = code := by
  rw [Char.ofNat, dif_pos h]
  rfl

/-- The bytes of a character by what its code point is to the base 64. -/
theorem bytesOf_two {x : UInt8} (hcode : c.val.toNat = (b.toNat - 0xC0) * 64 + (x.toNat - 0x80)) (hb : 0xC2 ≤ b.toNat)
    (hb' : b.toNat ≤ 0xDF) (hx : 0x80 ≤ x.toNat) (hx' : x.toNat ≤ 0xBF) : Glob.bytesOf c = [b, x] := by
  unfold Glob.bytesOf String.utf8EncodeChar
  dsimp only
  rw [hcode, if_neg (by omega), if_pos (by omega)]
  simp only [List.cons.injEq, and_true]
  constructor <;> rw [ofNat_eq_iff (by omega)] <;> omega

theorem bytesOf_three {x y : UInt8}
    (hcode : c.val.toNat = ((b.toNat - 0xE0) * 64 + (x.toNat - 0x80)) * 64 + (y.toNat - 0x80))
    (hlow : 0x800 ≤ c.val.toNat) (hb : 0xE0 ≤ b.toNat) (hb' : b.toNat ≤ 0xEF) (hx : 0x80 ≤ x.toNat)
    (hx' : x.toNat ≤ 0xBF) (hy : 0x80 ≤ y.toNat) (hy' : y.toNat ≤ 0xBF) : Glob.bytesOf c = [b, x, y] := by
  unfold Glob.bytesOf String.utf8EncodeChar
  dsimp only
  rw [hcode] at hlow ⊢
  rw [if_neg (by omega), if_neg (by omega), if_pos (by omega)]
  simp only [List.cons.injEq, and_true]
  refine ⟨?_, ?_, ?_⟩ <;> rw [ofNat_eq_iff (by omega)] <;> omega

theorem bytesOf_four {x y z : UInt8}
    (hcode : c.val.toNat =
      (((b.toNat - 0xF0) * 64 + (x.toNat - 0x80)) * 64 + (y.toNat - 0x80)) * 64 + (z.toNat - 0x80))
    (hlow : 0x10000 ≤ c.val.toNat) (hb : 0xF0 ≤ b.toNat) (hb' : b.toNat ≤ 0xF4) (hx : 0x80 ≤ x.toNat)
    (hx' : x.toNat ≤ 0xBF) (hy : 0x80 ≤ y.toNat) (hy' : y.toNat ≤ 0xBF) (hz : 0x80 ≤ z.toNat) (hz' : z.toNat ≤ 0xBF) :
    Glob.bytesOf c = [b, x, y, z] := by
  unfold Glob.bytesOf String.utf8EncodeChar
  dsimp only
  rw [hcode] at hlow ⊢
  rw [if_neg (by omega), if_neg (by omega), if_neg (by omega)]
  simp only [List.cons.injEq, and_true]
  refine ⟨?_, ?_, ?_, ?_⟩ <;> rw [ofNat_eq_iff (by omega)] <;> omega

/-- What decodes to a character is its bytes. -/
theorem bytesOf_of_decodeFirst (h : decodeFirst b rest = (some c, n)) :
    ∃ tail more, rest = tail ++ more ∧ tail.length = n ∧ Glob.bytesOf c = b :: tail := by
  rcases Nat.lt_or_ge b.toNat 0x80 with hascii | hlead
  · rw [decodeFirst, if_pos hascii, Prod.mk.injEq, Option.some.injEq] at h
    obtain ⟨rfl, rfl⟩ := h
    have hval : (Char.ofNat b.toNat).val.toNat = b.toNat := toNat_ofNat_of_valid (.inl (by omega))
    refine ⟨[], rest, rfl, rfl, ?_⟩
    rw [bytesOf_ascii (by omega), hval, UInt8.ofNat_toNat]
  · obtain ⟨l, code, hl, hcontinued, rfl⟩ := (decodeFirst_of_lead hlead).1 h
    clear h
    rcases lead?_eq_some_iff.1 hl with ⟨hb, hb', rfl⟩ | ⟨hb, hb', rfl⟩ | ⟨hb, hb', rfl⟩ <;>
      simp only [continuation_succ, continuation_zero] at hcontinued
    · obtain ⟨x, more, _, rfl, hx, hx', ⟨rfl, hcode⟩, rfl⟩ := hcontinued
      have hval := toNat_ofNat_of_valid (show code < 0xD800 ∨ _ by omega)
      exact ⟨[x], more, rfl, rfl, bytesOf_two (by omega) hb hb' hx hx'⟩
    · obtain ⟨x, _, _, rfl, hx, hx', ⟨y, more, _, rfl, hy, hy', ⟨rfl, hcode⟩, rfl⟩, rfl⟩ := hcontinued
      have hlow : 0x80 ≤ x.toNat ∧ (b.toNat = 0xE0 → 0xA0 ≤ x.toNat) := by grind
      have hhigh : x.toNat ≤ 0xBF ∧ (b.toNat = 0xED → x.toNat ≤ 0x9F) := by grind
      have hval := toNat_ofNat_of_valid (show code < 0xD800 ∨ 0xDFFF < code ∧ code < 0x110000 by omega)
      exact ⟨[x, y], more, rfl, rfl, bytesOf_three (by omega) (by omega) hb hb' hlow.1 hhigh.1 hy hy'⟩
    · obtain ⟨x, _, _, rfl, hx, hx', ⟨y, _, _, rfl, hy, hy', ⟨z, more, _, rfl, hz, hz', ⟨rfl, hcode⟩, rfl⟩, rfl⟩, rfl⟩ :=
        hcontinued
      have hlow : 0x80 ≤ x.toNat ∧ (b.toNat = 0xF0 → 0x90 ≤ x.toNat) := by grind
      have hhigh : x.toNat ≤ 0xBF ∧ (b.toNat = 0xF4 → x.toNat ≤ 0x8F) := by grind
      have hval := toNat_ofNat_of_valid (show code < 0xD800 ∨ 0xDFFF < code ∧ code < 0x110000 by omega)
      exact ⟨[x, y, z], more, rfl, rfl, bytesOf_four (by omega) (by omega) hb hb' hlow.1 hhigh.1 hy hy' hz hz'⟩

/-- The bytes of a character decode to it, whatever comes behind them. -/
theorem decodeFirst_of_bytesOf {tail : List UInt8} (h : Glob.bytesOf c = b :: tail) (more : List UInt8) :
    decodeFirst b (tail ++ more) = (some c, tail.length) := by
  have hvalid : c.val.toNat < 0xD800 ∨ 0xDFFF < c.val.toNat ∧ c.val.toNat < 0x110000 := c.valid
  have hc (code : Nat) (hcode : code = c.val.toNat) : c = Char.ofNat code := hcode ▸ (Char.ofNat_toNat c).symm
  unfold Glob.bytesOf String.utf8EncodeChar at h
  dsimp only at h
  generalize hv : c.val.toNat = v at h hvalid hc
  -- One case a length; each byte behind the first is in the range that the first one asks for.
  split at h
  · simp only [List.cons.injEq] at h
    obtain ⟨hb, rfl⟩ := h
    rw [ofNat_eq_iff (by omega)] at hb
    rw [decodeFirst, if_pos (by omega), ← hc b.toNat (by omega)]
    rfl
  · split at h
    · simp only [List.cons.injEq] at h
      obtain ⟨hb, rfl⟩ := h
      rw [ofNat_eq_iff (by omega)] at hb
      refine (decodeFirst_of_lead (by omega)).2 ⟨_, v, lead?_eq_some_iff.2 (.inl ⟨by omega, by omega, rfl⟩), ?_, hc v rfl⟩
      simp only [continuation_succ, continuation_zero]
      refine ⟨_, _, _, rfl, ?_, ?_, ⟨rfl, ?_⟩, rfl⟩ <;> rw [UInt8.toNat_ofNat'] <;> omega
    · split at h
      · simp only [List.cons.injEq] at h
        obtain ⟨hb, rfl⟩ := h
        rw [ofNat_eq_iff (by omega)] at hb
        refine (decodeFirst_of_lead (by omega)).2
          ⟨_, v, lead?_eq_some_iff.2 (.inr (.inl ⟨by omega, by omega, rfl⟩)), ?_, hc v rfl⟩
        simp only [continuation_succ, continuation_zero]
        refine ⟨_, _, _, rfl, ?_, ?_, ⟨_, _, _, rfl, ?_, ?_, ⟨rfl, ?_⟩, rfl⟩, rfl⟩ <;>
          simp only [UInt8.toNat_ofNat'] <;> (try split) <;> omega
      · simp only [List.cons.injEq] at h
        obtain ⟨hb, rfl⟩ := h
        rw [ofNat_eq_iff (by omega)] at hb
        refine (decodeFirst_of_lead (by omega)).2
          ⟨_, v, lead?_eq_some_iff.2 (.inr (.inr ⟨by omega, by omega, rfl⟩)), ?_, hc v rfl⟩
        simp only [continuation_succ, continuation_zero]
        refine ⟨_, _, _, rfl, ?_, ?_, ⟨_, _, _, rfl, ?_, ?_, ⟨_, _, _, rfl, ?_, ?_, ⟨rfl, ?_⟩, rfl⟩, rfl⟩, rfl⟩ <;>
          simp only [UInt8.toNat_ofNat'] <;> (try split) <;> omega

/-! ## Decoding all bytes -/

theorem decodeOnto_eq_append (bytes : List UInt8) (front : List (Option Char)) :
    decodeOnto bytes front = decodeOnto bytes [] ++ front := by
  induction hlength : bytes.length using Nat.strongRecOn generalizing bytes front with
  | _ k ih =>
    cases bytes with
    | nil => rw [decodeOnto, decodeOnto, List.nil_append]
    | cons b rest =>
      rw [decodeOnto, decodeOnto]
      have hlt : (rest.drop (decodeFirst b rest).2).length < k := by
        rw [← hlength, List.length_cons, List.length_drop]
        omega
      simp only
      rw [ih _ hlt _ _ rfl, ih _ hlt _ [_] rfl, List.append_assoc, List.singleton_append]

theorem decodeOnto_cons {tail more : List UInt8} {first : Option Char}
    (h : decodeFirst b (tail ++ more) = (first, tail.length)) :
    decodeOnto (b :: (tail ++ more)) [] = decodeOnto more [] ++ [first] := by
  rw [decodeOnto, h]
  simp only [List.drop_left]
  exact decodeOnto_eq_append more [first]

theorem eq_flatMap_of_decodeOnto {cs : List Char} (h : decodeOnto bytes [] = (cs.map some).reverse) :
    bytes = cs.flatMap Glob.bytesOf := by
  induction hlength : bytes.length using Nat.strongRecOn generalizing bytes cs with
  | _ k ih =>
    cases bytes with
    | nil =>
      rw [decodeOnto, eq_comm, List.reverse_eq_nil_iff, List.map_eq_nil_iff] at h
      rw [h, List.flatMap_nil]
    | cons b rest =>
      rw [decodeOnto] at h
      simp only at h
      rw [decodeOnto_eq_append] at h
      cases cs with
      | nil => simp at h
      | cons c cs =>
        rw [List.map_cons, List.reverse_cons] at h
        obtain ⟨hrest, hfirst⟩ := List.append_inj' h rfl
        have hdecoded : decodeFirst b rest = (some c, (decodeFirst b rest).2) := by
          rw [← List.singleton_inj.1 hfirst]
        obtain ⟨tail, more, rfl, htail, hbytes⟩ := bytesOf_of_decodeFirst hdecoded
        rw [← htail, List.drop_left] at hrest
        have hlt : more.length < k := by
          rw [← hlength, List.length_cons, List.length_append]
          omega
        rw [List.flatMap_cons, hbytes, ← ih _ hlt hrest rfl, List.cons_append]

theorem decodeOnto_flatMap (cs : List Char) : decodeOnto (cs.flatMap Glob.bytesOf) [] = (cs.map some).reverse := by
  induction cs with
  | nil => rw [List.flatMap_nil, decodeOnto, List.map_nil, List.reverse_nil]
  | cons c cs ih =>
    obtain ⟨b, tail, hbytes⟩ := exists_cons_bytesOf c
    rw [List.flatMap_cons, hbytes, List.cons_append, decodeOnto_cons (decodeFirst_of_bytesOf hbytes _), ih,
      List.map_cons, List.reverse_cons]

theorem eq_map_some_iff {α : Type} {found : List (Option α)} {as : List α} :
    found = as.map some ↔ found.all (·.isSome) = true ∧ found.filterMap id = as := by
  constructor
  · rintro rfl
    simp
  · rintro ⟨hall, rfl⟩
    induction found with
    | nil => rfl
    | cons a? found ih =>
      rw [List.all_cons, Bool.and_eq_true] at hall
      obtain ⟨a, rfl⟩ := Option.isSome_iff_exists.1 hall.1
      exact congrArg (some a :: ·) (ih hall.2)

/-- Exactly the bytes of texts are well formed, and they decode to their text. -/
theorem decode?_eq_some_iff {bytes : ByteArray} {s : String} : decode? bytes = some s ↔ bytes = s.toUTF8 := by
  have htext : decode? bytes = some s ↔ decodeOnto bytes.toList [] = (s.toList.map some).reverse := by
    rw [← List.reverse_eq_iff, ← decode, eq_map_some_iff]
    simp only [decode?, Option.ite_none_right_eq_some, Option.some.injEq, ← String.toList_inj, String.toList_ofList]
  have hbytes : bytes.toList = s.toUTF8.toList ↔ bytes = s.toUTF8 := by
    rw [ByteArray.toList, ByteArray.toList, toList_loop_eq, toList_loop_eq]
    exact ⟨fun h => ByteArray.ext (Array.toList_inj.1 h), fun h => h ▸ rfl⟩
  rw [htext, ← hbytes, toUTF8_toList]
  exact ⟨eq_flatMap_of_decodeOnto, fun h => h ▸ decodeOnto_flatMap s.toList⟩

/-- The bytes of a text have nothing to replace. -/
theorem decodeLossy_toUTF8 (s : String) : decodeLossy s.toUTF8 = s := by
  have hdecode : decode s.toUTF8 = s.toList.map some := by
    rw [decode, toUTF8_toList, decodeOnto_flatMap, List.reverse_reverse]
  rw [decodeLossy, hdecode, List.map_map]
  exact (congrArg String.ofList (List.map_id s.toList)).trans String.ofList_toList

end PromptPack.Text
