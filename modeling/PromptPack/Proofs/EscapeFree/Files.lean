import PromptPack.Proofs.EscapeFree.Text
import PromptPack.Proofs.FileSystem.Tree
import PromptPack.Proofs.Glob.Builtin
import PromptPack.Proofs.Text.Bytes
import PromptPack.Content
import PromptPack.Glob.Lines
/-!
# Files without escapes

Of bytes only one begins an escape sequence: it stands for its character, and no longer sequence of bytes decodes to
that character. What is read from files that are free of it, and the names that are found among them, are free of
escapes.
-/

namespace PromptPack

/-- The byte of the character that begins an escape sequence. -/
def escapeByte : UInt8 := 27

namespace Text

/-! ## Decoding -/

/-- The bits that are read first count for most. -/
theorem bits_le_of_continuation {more low high bits n code : Nat} {rest : List UInt8}
    (h : continuation more low high bits rest = (n, some code)) : bits * 64 ^ more ≤ code := by
  induction more generalizing low high bits n rest with
  | zero =>
    obtain ⟨-, rfl⟩ : 0 = n ∧ bits = code := by simpa [continuation] using h
    omega
  | succ more ih =>
    cases rest with
    | nil => simp [continuation] at h
    | cons b rest =>
      simp only [continuation] at h
      split at h
      · simp only [Prod.mk.injEq] at h
        have hle := ih (Prod.ext rfl h.2)
        calc
          bits * 64 ^ (more + 1) = bits * 64 * 64 ^ more := by ring
          _ ≤ (bits * 64 + (b.toNat - 0x80)) * 64 ^ more := Nat.mul_le_mul_right _ (Nat.le_add_right _ _)
          _ ≤ code := hle
      · simp at h

/-- The least byte that may come next leaves its bits in the code point. -/
theorem low_le_of_continuation {more low high bits n code : Nat} {rest : List UInt8}
    (h : continuation (more + 1) low high bits rest = (n, some code)) :
    (bits * 64 + (low - 0x80)) * 64 ^ more ≤ code := by
  cases rest with
  | nil => simp [continuation] at h
  | cons b rest =>
    simp only [continuation] at h
    split at h
    · rename_i hrange
      simp only [Prod.mk.injEq] at h
      have hle := bits_le_of_continuation (Prod.ext rfl h.2)
      refine le_trans (Nat.mul_le_mul_right _ ?_) hle
      omega
    · simp at h

theorem one_le_of_lead? {b : Nat} {l : Lead} (h : lead? b = some l) : ∃ more, l.more = more + 1 ∧
    128 ≤ (l.bits * 64 + (l.low - 0x80)) * 64 ^ more := by
  unfold lead? at h
  split_ifs at h with h1 h2 h3 h4 h5 h6 h7 <;> cases h
  · simp only [Bool.and_eq_true, decide_eq_true_eq] at h1
    exact ⟨0, rfl, by simp only; omega⟩
  · exact ⟨1, rfl, by decide⟩
  · exact ⟨1, rfl, by decide⟩
  · simp only [Bool.and_eq_true, decide_eq_true_eq] at h4
    exact ⟨1, rfl, by simp only [beq_iff_eq] at h2; simp only; omega⟩
  · exact ⟨2, rfl, by decide⟩
  · simp only [Bool.and_eq_true, decide_eq_true_eq] at h6
    exact ⟨2, rfl, by simp only [beq_iff_eq] at h5; simp only; omega⟩
  · exact ⟨2, rfl, by decide⟩

/-- A code point that is no ASCII character does not begin an escape sequence. -/
theorem eq_of_ofNat_eq_escapeMark {n : Nat} (h : Char.ofNat n = escapeMark) : n = 27 := by
  by_cases hvalid : n.isValidChar
  · have := congrArg Char.toNat h
    rwa [Char.toNat_ofNat, if_pos hvalid] at this
  · have := congrArg Char.toNat h
    rw [Char.toNat_ofNat, if_neg hvalid] at this
    exact absurd this (by decide)

theorem eq_escapeByte_of_decodeFirst {b : UInt8} {rest : List UInt8} (h : (decodeFirst b rest).1 = some escapeMark) :
    b = escapeByte := by
  unfold decodeFirst at h
  split at h
  · exact UInt8.toNat_inj.1 (eq_of_ofNat_eq_escapeMark (Option.some.inj h))
  · split at h
    · cases h
    · rename_i l hlead
      split at h
      · rename_i n code hcode
        obtain ⟨more, hmore, hlow⟩ := one_le_of_lead? hlead
        rw [hmore] at hcode
        have hcode := low_le_of_continuation hcode
        have := eq_of_ofNat_eq_escapeMark (Option.some.inj h)
        omega
      · cases h

theorem escapeMark_not_mem_decodeOnto {bytes : List UInt8} {front : List (Option Char)} (h : escapeByte ∉ bytes)
    (hfront : some escapeMark ∉ front) : some escapeMark ∉ decodeOnto bytes front := by
  fun_induction decodeOnto bytes front with
  | case1 => exact hfront
  | case2 b rest front c n hfirst ih =>
    rw [List.mem_cons, not_or] at h
    refine ih (fun hmem => h.2 ((List.drop_sublist n rest).subset hmem)) ?_
    rw [List.mem_cons, not_or]
    refine ⟨fun hc => h.1 ?_, hfront⟩
    have hmark : (decodeFirst b rest).1 = some escapeMark := by rw [hfirst, hc]
    exact (eq_escapeByte_of_decodeFirst hmark).symm

theorem escapeMark_not_mem_decode {bytes : ByteArray} (h : escapeByte ∉ bytes.toList) :
    some escapeMark ∉ decode bytes := by
  rw [decode, List.mem_reverse]
  exact escapeMark_not_mem_decodeOnto h List.not_mem_nil

theorem escapeFree_decodeLossy {bytes : ByteArray} (h : escapeByte ∉ bytes.toList) : EscapeFree (decodeLossy bytes) := by
  rw [decodeLossy, escapeFree_ofList, List.mem_map]
  rintro ⟨c, hc, hmark⟩
  cases c with
  | none => exact absurd hmark (by decide)
  | some c =>
    obtain rfl : c = escapeMark := hmark
    exact escapeMark_not_mem_decode h hc

theorem escapeFree_decode? {bytes : ByteArray} {text : String} (h : escapeByte ∉ bytes.toList)
    (htext : decode? bytes = some text) : EscapeFree text := by
  simp only [decode?, Option.ite_none_right_eq_some, Option.some.injEq] at htext
  obtain ⟨-, rfl⟩ := htext
  rw [escapeFree_ofList, List.mem_filterMap]
  rintro ⟨c, hc, rfl⟩
  exact escapeMark_not_mem_decode h hc

/-! ## Encoding -/

theorem escapeByte_mem_bytesOf_iff {c : Char} : escapeByte ∈ Glob.bytesOf c ↔ c = escapeMark := by
  rw [mem_bytesOf_iff (by decide), Char.ext_iff, ← UInt32.toNat_inj]
  rfl

theorem escapeByte_mem_toUTF8_iff {s : String} : escapeByte ∈ s.toUTF8.toList ↔ ¬ EscapeFree s := by
  rw [toUTF8_toList, List.mem_flatMap, EscapeFree, not_not]
  simp only [escapeByte_mem_bytesOf_iff, exists_eq_right]

theorem escapeFree_of_bytes {s : String} (h : s.toByteArray.data.toList.contains escapeByte = false) : EscapeFree s := by
  intro hmark
  have hbyte : escapeByte ∈ s.toByteArray.data.toList := byte_mem_of_mem (by decide) hmark
  simp [hbyte] at h

end Text

/-! ## File systems -/

/-- What an item holds is free of escapes. -/
def Item.Plain : Item → Prop
  | .file bytes => escapeByte ∉ bytes.toList
  | .dir => True
  | .link target => EscapeFree target

/-- The names and the contents of all items are free of escapes. -/
structure FileSystem.Plain (fs : FileSystem) : Prop where
  names : ∀ x ∈ fs.items, ∀ name ∈ x.1, EscapeFree name
  contents : ∀ x ∈ fs.items, x.2.Plain

namespace FileSystem.Plain

variable {fs : FileSystem} {p q : Path} {loc : Location} {item : Item} {name text : String} {bytes : ByteArray}

theorem of_lookup (h : fs.Plain) (hitem : fs.lookup loc = some item) :
    (∀ name ∈ loc, EscapeFree name) ∧ item.Plain := by
  by_cases hne : loc = []
  · subst hne
    obtain rfl := Option.some.inj hitem
    exact ⟨by simp, trivial⟩
  · have hmem := mem_items_of_lookup hne hitem
    exact ⟨h.names _ hmem, h.contents _ hmem⟩

theorem of_place (h : fs.Plain) {last : Bool} (hplace : fs.place p last = some ⟨loc, some item⟩) :
    (∀ name ∈ loc, EscapeFree name) ∧ item.Plain :=
  h.of_lookup (lookup_of_place hplace)

theorem of_readBytes? (h : fs.Plain) (hbytes : fs.readBytes? p = some bytes) : escapeByte ∉ bytes.toList := by
  unfold readBytes? at hbytes
  split at hbytes
  · rename_i loc found hplace
    obtain ⟨-, rfl⟩ : fs.opens loc = true ∧ found = bytes := by simpa using hbytes
    exact (h.of_place hplace).2
  · cases hbytes

theorem of_readText? (h : fs.Plain) (htext : fs.readText? p = some text) : EscapeFree text := by
  obtain ⟨bytes, hbytes, htext⟩ := Option.bind_eq_some_iff.1 htext
  exact Text.escapeFree_decode? (h.of_readBytes? hbytes) htext

theorem of_readContent (h : fs.Plain) {c : Content} (hc : fs.readContent p = .ok c) :
    EscapeFree c.text := by
  unfold readContent at hc
  split at hc
  · rename_i loc bytes hplace
    dsimp only at hc
    split at hc
    · cases hc
      exact Text.escapeFree_decodeLossy (h.of_place hplace).2
    · cases hc
  · cases hc
  · cases hc

theorem pathOf (h : ∀ name ∈ loc, EscapeFree name) : EscapeFree (FileSystem.pathOf loc).text := by
  exact escapeFree_slash.append (escapeFree_intercalate escapeFree_slash h)

theorem of_canonical? (h : fs.Plain) (hq : fs.canonical? p = some q) : EscapeFree q.text := by
  obtain ⟨loc, hloc, rfl⟩ := Option.map_eq_some_iff.1 hq
  obtain ⟨⟨loc', item⟩, hplace, hitem⟩ := Option.bind_eq_some_iff.1 hloc
  obtain ⟨item, rfl, rfl⟩ := Option.map_eq_some_iff.1 hitem
  exact pathOf (h.of_place hplace).1

theorem of_mem_children (h : fs.Plain) (hmem : (name, item) ∈ fs.children loc) : EscapeFree name :=
  h.names _ (mem_children.1 hmem) name (by simp)

end FileSystem.Plain

/-! ## Pattern files -/

namespace Glob

theorem escapeFree_of_mem_parseLines {text glob : String} (h : EscapeFree text) (hglob : glob ∈ parseLines text) :
    EscapeFree glob := h.of_subset (toList_subset_of_mem_parseLines hglob)

theorem escapeFree_of_mem_builtinLines {line : String} (h : line ∈ builtinLines) : EscapeFree line := by
  have hbytes : builtinLines.all (fun line => !line.toByteArray.data.toList.contains escapeByte) = true := by
    decide +kernel
  exact Text.escapeFree_of_bytes (by simpa using List.all_eq_true.1 hbytes line h)

theorem escapeFree_builtinText : EscapeFree builtinText :=
  escapeFree_intercalate (escapeFree_literal rfl) fun _ => escapeFree_of_mem_builtinLines

theorem escapeFree_of_mem_builtin {glob : String} (h : glob ∈ builtin) : EscapeFree glob :=
  escapeFree_of_mem_parseLines escapeFree_builtinText h

end Glob

end PromptPack
